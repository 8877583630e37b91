import Menus.Text.Digits

/-!
# Quoted texts of a TOML document

Four ways to quote a text: on one line or on several, with escapes or without. Control characters
other than tabs stand in none of them, except the line ends of a text of several lines. There a
backslash at the end of a line takes the line end and all blanks and line ends behind it away.
-/

namespace Menus.Toml

/-- A control character that may not be written as it is. A tab may. -/
def isControl (c : Char) : Bool :=
  (c.toNat < 0x20 && c != '\t') || c.toNat == 0x7F

/-- Blanks within a line. -/
def isLineBlank (c : Char) : Bool := c == ' ' || c == '\t'

/-- The text behind the blanks at its start. -/
def skipBlanks (text : List Char) : List Char := text.dropWhile isLineBlank

/-- The text behind a line end at its start. -/
def afterLineEnd? : List Char → Option (List Char)
  | '\n' :: rest => some rest
  | '\r' :: '\n' :: rest => some rest
  | _ => none

/-- The text behind the blanks and line ends at its start. -/
def skipBlankLines : List Char → List Char
  | ' ' :: rest => skipBlankLines rest
  | '\t' :: rest => skipBlankLines rest
  | '\n' :: rest => skipBlankLines rest
  | '\r' :: '\n' :: rest => skipBlankLines rest
  | text => text

/-- The character that exactly `count` hexadecimal digits at the start of a text stand for. -/
def numbered? (count : Nat) (text : List Char) : Option (Char × List Char) :=
  let digits := text.take count
  let code := Text.numberOf 16 digits
  if digits.length = count ∧ digits.all (Text.isDigitOf 16) ∧ code.isValidChar then
    some (Char.ofNat code, text.drop count)
  else none

/-- The character of an escape, read behind its backslash. -/
def escaped? : List Char → Option (Char × List Char)
  | 'b' :: rest => some ('\x08', rest)
  | 't' :: rest => some ('\t', rest)
  | 'n' :: rest => some ('\n', rest)
  | 'f' :: rest => some ('\x0c', rest)
  | 'r' :: rest => some ('\r', rest)
  | 'e' :: rest => some ('\x1b', rest)
  | '"' :: rest => some ('"', rest)
  | '\\' :: rest => some ('\\', rest)
  | 'x' :: rest => numbered? 2 rest
  | 'u' :: rest => numbered? 4 rest
  | 'U' :: rest => numbered? 8 rest
  | _ => none

/-- What follows an escape is shorter than what follows its backslash. -/
theorem escaped?_length {text rest : List Char} {meant : Char}
    (read : escaped? text = some (meant, rest)) : rest.length < text.length := by
  have shorter (count : Nat) (digits : List Char)
      (read : numbered? count digits = some (meant, rest)) : rest.length ≤ digits.length := by
    simp only [numbered?] at read
    split at read
    · simp only [Option.some.injEq, Prod.mk.injEq] at read
      simp [← read.2]
    · exact absurd read (by simp)
  unfold escaped? at read
  split at read
  case h_9 | h_10 | h_11 => exact Nat.lt_succ_of_le (shorter _ _ read)
  case h_12 => exact absurd read (by simp)
  all_goals
    simp only [Option.some.injEq, Prod.mk.injEq] at read
    simp [← read.2]

/-- A quoted text of one line, read behind its opening quote. -/
def oneLine? (quote : Char) (escapes : Bool) : List Char → Option (List Char × List Char)
  | [] => none
  | c :: rest =>
    if c = quote then some ([], rest)
    else if escapes ∧ c = '\\' then
      match _read : escaped? rest with
      | none => none
      | some (meant, after) =>
        (oneLine? quote escapes after).map fun (text, rest) => (meant :: text, rest)
    else if isControl c then none
    else (oneLine? quote escapes rest).map fun (text, rest) => (c :: text, rest)
termination_by text => text.length
decreasing_by
  · exact Nat.lt_succ_of_lt (escaped?_length _read)
  · exact Nat.lt_succ_self _

/-- The end of a quoted text of several lines: three quotes close it, and up to two more in front of
those belong to the text. -/
def closing? (quote : Char) (text : List Char) : Option (List Char × List Char) :=
  let quotes := min (text.takeWhile (· = quote)).length 5
  if quotes < 3 then none else some (List.replicate (quotes - 3) quote, text.drop quotes)

/-- A part of a quoted text of several lines that does not close it: a character, an escape or a
line end, with the text it stands for. -/
def part? (escapes : Bool) : List Char → Option (List Char × List Char)
  | [] => none
  | c :: rest =>
    if escapes ∧ c = '\\' then
      match afterLineEnd? (skipBlanks rest) with
      | some after => some ([], skipBlankLines after)
      | none => (escaped? rest).map fun (meant, after) => ([meant], after)
    else if c = '\n' then some ([c], rest)
    else if c = '\r' then
      match rest with
      | '\n' :: after => some (['\r', '\n'], after)
      | _ => none
    else if isControl c then none
    else some ([c], rest)

/-- Behind a line end there is less text. -/
theorem afterLineEnd?_length {text rest : List Char} (read : afterLineEnd? text = some rest) :
    rest.length < text.length := by
  unfold afterLineEnd? at read
  split at read
  · simp only [Option.some.injEq] at read
    simp [← read]
  · simp only [Option.some.injEq] at read
    simp only [← read, List.length_cons]
    omega
  · exact absurd read (by simp)

/-- Skipping blanks and line ends leaves no more text. -/
theorem skipBlankLines_length (text : List Char) :
    (skipBlankLines text).length ≤ text.length := by
  fun_induction skipBlankLines text with
  | case5 => exact Nat.le_refl _
  | case1 | case2 | case3 | case4 =>
    simp only [List.length_cons]
    omega

/-- Behind a part of a quoted text there is less text. -/
theorem part?_length {escapes : Bool} {text shown rest : List Char}
    (read : part? escapes text = some (shown, rest)) : rest.length < text.length := by
  cases text with
  | nil => simp [part?] at read
  | cons c behind =>
    have blanks : (skipBlanks behind).length ≤ behind.length :=
      (List.dropWhile_sublist (l := behind) isLineBlank).length_le
    simp only [part?] at read
    split at read
    · split at read
      · next after found =>
        simp only [Option.some.injEq, Prod.mk.injEq] at read
        have skipped := skipBlankLines_length after
        have shorter := afterLineEnd?_length found
        simp only [← read.2, List.length_cons]
        omega
      · obtain ⟨⟨meant, after⟩, found, same⟩ := Option.map_eq_some_iff.mp read
        simp only [Prod.mk.injEq] at same
        exact same.2 ▸ Nat.lt_succ_of_lt (escaped?_length found)
    · split at read
      · simp only [Option.some.injEq, Prod.mk.injEq] at read
        simp [← read.2]
      · split at read
        · split at read
          · simp only [Option.some.injEq, Prod.mk.injEq] at read
            simp only [← read.2, List.length_cons]
            omega
          · exact absurd read (by simp)
        · split at read
          · exact absurd read (by simp)
          · simp only [Option.some.injEq, Prod.mk.injEq] at read
            simp [← read.2]

/-- A quoted text of several lines, read behind its opening quotes. -/
def manyLines? (quote : Char) (escapes : Bool) (text : List Char) :
    Option (List Char × List Char) :=
  match closing? quote text with
  | some closed => some closed
  | none =>
    match _read : part? escapes text with
    | none => none
    | some (shown, after) =>
      (manyLines? quote escapes after).map fun (more, rest) => (shown ++ more, rest)
termination_by text.length
decreasing_by exact part?_length _read

/-- A quoted text, read at its first quote. A line end right behind three quotes is no part of the
text. -/
def quoted? (text : List Char) : Option (String × List Char) :=
  let read :=
    match text with
    | '"' :: '"' :: '"' :: rest => manyLines? '"' true ((afterLineEnd? rest).getD rest)
    | '\'' :: '\'' :: '\'' :: rest => manyLines? '\'' false ((afterLineEnd? rest).getD rest)
    | '"' :: rest => oneLine? '"' true rest
    | '\'' :: rest => oneLine? '\'' false rest
    | _ => none
  read.map fun (shown, rest) => (String.ofList shown, rest)

end Menus.Toml
