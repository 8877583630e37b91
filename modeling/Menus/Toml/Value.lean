/-!
# TOML values

What a TOML document denotes: a table of named values. A number with a fraction or an exponent, and
a date or time, are told apart from everything else and not looked into, since no schema here has a
field for one.

A number may be one in form only. Its document is still well formed, and a reader that comes to it
refuses it; a reader that passes over it never finds out.
-/

namespace Menus.Toml

/-- A value of a document. -/
inductive Value where
  | text (value : String)
  | integer (value : Int)
  | boolean (value : Bool)
  /-- A number that is no integer. -/
  | float
  /-- A date, a time, or both. -/
  | moment
  /-- A number in form only: too large to be kept, or with digits that its base does not have. -/
  | unreadable
  | list (items : List Value)
  | table (fields : List (String × Value))

instance : Inhabited Value := ⟨.float⟩

/-- The fields of a table. -/
abbrev Fields := List (String × Value)

mutual

/-- No number in the value is one in form only. -/
def Value.isReadable : Value → Bool
  | .unreadable => false
  | .list items => areReadable items
  | .table fields => haveReadable fields
  | _ => true

/-- All the values can be read. -/
def areReadable : List Value → Bool
  | [] => true
  | item :: rest => item.isReadable && areReadable rest

/-- The values of all the fields can be read. -/
def haveReadable : List (String × Value) → Bool
  | [] => true
  | (_, value) :: rest => value.isReadable && haveReadable rest

end

end Menus.Toml
