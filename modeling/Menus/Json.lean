import Menus.Text.Digits

/-!
# JSON text

The part of JSON that the output of expanded menus needs: texts, truth values, lists and records
whose fields keep their order. The printed form has one item a line, indented by two blanks a level.
-/

namespace Menus

/-- A JSON value without numbers and null. -/
inductive Json where
  | text (value : String)
  | truth (value : Bool)
  | list (items : List Json)
  | record (fields : List (String × Json))

namespace Json

/-- A character inside quotes. Only quotes, backslashes and control characters are escaped. -/
def escape (c : Char) : List Char :=
  match c with
  | '"' => ['\\', '"']
  | '\\' => ['\\', '\\']
  | '\n' => ['\\', 'n']
  | '\r' => ['\\', 'r']
  | '\t' => ['\\', 't']
  | c =>
    if c.toNat = 0x08 then ['\\', 'b']
    else if c.toNat = 0x0C then ['\\', 'f']
    else if c.toNat < 0x20 then
      ['\\', 'u', '0', '0', Text.hexDigit (c.toNat / 16),
        Text.hexDigit (c.toNat % 16)]
    else [c]

/-- A text in quotes. -/
def quote (text : String) : String :=
  String.ofList ('"' :: text.toList.flatMap escape ++ ['"'])

/-- The start of a line at some level. -/
def lineStart (level : Nat) : String :=
  String.ofList ('\n' :: List.replicate (2 * level) ' ')

mutual

/-- The printed form of a value inside `level` brackets. -/
def pretty (level : Nat) : Json → String
  | text value => quote value
  | truth value => if value then "true" else "false"
  | list [] => "[]"
  | list (first :: rest) => "[" ++ prettyItems (level + 1) (first :: rest) ++ lineStart level ++ "]"
  | record [] => "\x7b\x7d"
  | record (first :: rest) =>
    "\x7b" ++ prettyFields (level + 1) (first :: rest) ++ lineStart level ++ "\x7d"

/-- Items, one a line. -/
def prettyItems (level : Nat) : List Json → String
  | [] => ""
  | [item] => lineStart level ++ pretty level item
  | item :: rest => lineStart level ++ pretty level item ++ "," ++ prettyItems level rest

/-- Fields, one a line. -/
def prettyFields (level : Nat) : List (String × Json) → String
  | [] => ""
  | [(name, value)] => lineStart level ++ quote name ++ ": " ++ pretty level value
  | (name, value) :: rest =>
    lineStart level ++ quote name ++ ": " ++ pretty level value ++ "," ++ prettyFields level rest

end

end Json

end Menus
