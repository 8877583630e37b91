import Menus.Definition.Diagnostic
import Menus.Definition.Keyword

/-!
# Reading tokens one at a time

A cursor stands in the tokens of one file. It knows the productions entered and not yet left, the
innermost first, and has collected the diagnostics so far. Whatever is read, the innermost
production alone decides which words are keywords.

Bodies and blocks are read from their tokens alone. `Menu.readByTurns_eq` and `Registry.readByTurns_eq`
say that a cursor which enters their productions and takes one token after another reads the same.
-/

namespace Menus

/-- A place in the tokens of a file. -/
structure Cursor where
  file : String
  pending : List Token
  productions : List Production := []
  diagnostics : List Diagnostic := []

/-- What the next token is. -/
inductive Lexeme where
  /-- A keyword of the innermost production. -/
  | keyword (keyword : Keyword) (token : Token)
  /-- A token that production does not know. -/
  | unknown (token : Token)
  /-- There is none. -/
  | endOfInput
deriving Repr

namespace Cursor

/-- A cursor at the start of a text. Quotes that nothing closes are reported at once. -/
def ofText (file text : String) : Cursor :=
  let tokens := Token.ofText text
  { file, pending := tokens, diagnostics := Diagnostic.ofTokens file tokens }

/-- Tokens are left. -/
def hasTokens (cursor : Cursor) : Bool := !cursor.pending.isEmpty

/-- The name of the innermost production. -/
def production (cursor : Cursor) : String :=
  match cursor.productions with
  | [] => "<toplevel>"
  | innermost :: _ => innermost.name

/-- The keyword a token is in the innermost production. -/
def keyword? (cursor : Cursor) (token : Token) : Option Keyword :=
  cursor.productions.head?.bind fun innermost => innermost.keyword? token

/-- Enters a production. -/
def enter (cursor : Cursor) (production : Production) : Cursor :=
  { cursor with productions := production :: cursor.productions }

/-- Leaves the innermost production. -/
def leave (cursor : Cursor) : Cursor :=
  { cursor with productions := cursor.productions.tail }

/-- Collects a diagnostic. -/
def report (cursor : Cursor) (diagnostic : Diagnostic) : Cursor :=
  { cursor with diagnostics := cursor.diagnostics ++ [diagnostic] }

/-- Reports a token the innermost production does not know. -/
def reportUnknown (cursor : Cursor) (token : Token) : Cursor :=
  cursor.report (.unknownTag cursor.file token.line token.text cursor.production)

/-- Reports that the input ended inside the innermost production. -/
def reportEnd (cursor : Cursor) : Cursor :=
  cursor.report (.unexpectedEnd cursor.file cursor.production)

/-- Takes the next token. -/
def next (cursor : Cursor) : Lexeme × Cursor :=
  match cursor.pending with
  | [] => (.endOfInput, cursor)
  | token :: rest =>
    let moved := { cursor with pending := rest }
    match cursor.keyword? token with
    | some keyword => (.keyword keyword token, moved)
    | none => (.unknown token, moved)

/-- Takes the argument that follows `after`. A keyword is no argument and stays where it is. -/
def argument? (cursor : Cursor) (expected : String) (after : Token) : Option Token × Cursor :=
  let missing := cursor.report (.missingArgument cursor.file after.line expected after.text)
  match cursor.pending with
  | [] => (none, missing)
  | token :: rest =>
    if (cursor.keyword? token).isNone then (some token, { cursor with pending := rest })
    else (none, missing)

/-- Leaving undoes entering. -/
@[simp] theorem leave_enter (cursor : Cursor) (production : Production) :
    (cursor.enter production).leave = cursor := rfl

end Cursor

end Menus
