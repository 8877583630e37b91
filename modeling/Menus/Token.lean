import Menus.Text.Blank

/-!
# Tokens of a definition text

Blanks separate words, `"` quotes a text and `#` starts a comment that runs to the end of its line.
Nothing else is special, and no text is refused: a quoted text that is never closed becomes a token
marked `unclosed` and reading goes on behind it.

Between quotes a backslash takes the next character literally. It takes no line end: a backslash
before one, or at the end of the text, ends the quoted text unclosed, and the backslash begins a
word of its own.
-/

namespace Menus

/-- How a token was written. -/
inductive Token.Form where
  /-- A word between blanks. -/
  | bare
  /-- A text between quotes. -/
  | quoted
  /-- A text behind a quote that nothing closes. -/
  | unclosed
deriving DecidableEq, Repr, Inhabited

/-- A token: its text without quotes and with escapes resolved, and the line its first character
stands on, counted from 1. -/
structure Token where
  text : String
  line : Nat
  form : Token.Form
deriving DecidableEq, Repr, Inhabited

namespace Token

/-- The token was written with a quote, so it is never a keyword. -/
def isQuoted (token : Token) : Bool := token.form != .bare

/-- The quote of the token was never closed. -/
def isUnclosed (token : Token) : Bool := token.form == .unclosed

/-- The characters that words consist of. -/
def isWordChar (c : Char) : Bool := !Text.isBlank c && c != '"' && c != '#'

/-- A quoted text as read behind its opening quote. -/
structure Quoted where
  text : List Char
  closed : Bool
  rest : List Char
deriving DecidableEq, Repr

/-- Puts a character in front of a quoted text. -/
def Quoted.cons (c : Char) (quoted : Quoted) : Quoted :=
  { quoted with text := c :: quoted.text }

/-- Reads a quoted text up to its closing quote, or as far as it goes. -/
def readQuoted : List Char → Quoted
  | [] => ⟨[], false, []⟩
  | '"' :: rest => ⟨[], true, rest⟩
  | '\\' :: c :: rest =>
    if c = '\n' then ⟨[], false, '\\' :: c :: rest⟩ else (readQuoted rest).cons c
  | ['\\'] => ⟨[], false, ['\\']⟩
  | c :: rest => (readQuoted rest).cons c

/-- A quoted text takes nothing but what stands in front of its rest. -/
theorem readQuoted_rest_length (text : List Char) :
    (readQuoted text).rest.length ≤ text.length := by
  fun_induction readQuoted text <;> simp_all [Quoted.cons] <;> omega

/-- What `dropWhile` leaves is no longer than the list. -/
theorem length_dropWhile_le {α : Type} (p : α → Bool) (list : List α) :
    (list.dropWhile p).length ≤ list.length :=
  (List.dropWhile_sublist p).length_le

/-- The tokens of a text whose first character stands on the given line. -/
def scan (line : Nat) : List Char → List Token
  | [] => []
  | c :: rest =>
    if Text.isBlank c then scan (if c = '\n' then line + 1 else line) rest
    else if c = '#' then scan line (rest.dropWhile (· ≠ '\n'))
    else if c = '"' then
      let quoted := readQuoted rest
      ⟨String.ofList quoted.text, line, if quoted.closed then .quoted else .unclosed⟩ ::
        scan (line + quoted.text.count '\n') quoted.rest
    else
      ⟨String.ofList (c :: rest.takeWhile isWordChar), line, .bare⟩ ::
        scan line (rest.dropWhile isWordChar)
termination_by text => text.length
decreasing_by
  · exact Nat.lt_succ_self _
  · exact Nat.lt_succ_of_le (length_dropWhile_le _ rest)
  · exact Nat.lt_succ_of_le (readQuoted_rest_length rest)
  · exact Nat.lt_succ_of_le (length_dropWhile_le _ rest)

/-- The tokens of a text. -/
def ofText (text : String) : List Token :=
  scan 1 text.toList

end Token

end Menus
