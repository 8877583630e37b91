import Menus.Toml.Value

/-!
# Records from TOML values

How the fields of a record are found in a value. A record is written as a table, and then fields are
found by name and others ignored, or as a list, and then they are found by position. A missing field
takes its default if it has one; a value of the wrong type is refused, never replaced by a default.

What is ignored in a table still has to be readable. Items of a list beyond the last field are never
come to, so nothing is asked of them.
-/

namespace Menus.Toml

/-- Reads a value as a thing of some type, if it is one. -/
abbrev Decoder (α : Type) := Value → Option α

/-- A text. -/
def text? : Decoder String
  | .text value => some value
  | _ => none

/-- A truth value. -/
def boolean? : Decoder Bool
  | .boolean value => some value
  | _ => none

/-- A natural number of 64 bits. -/
def natural? : Decoder Nat
  | .integer value => if 0 ≤ value ∧ value < 0x10000000000000000 then some value.toNat else none
  | _ => none

/-- A signed integer of 32 bits. -/
def signed? : Decoder Int
  | .integer value => if -0x80000000 ≤ value ∧ value < 0x80000000 then some value else none
  | _ => none

/-- A list. -/
def list? {α : Type} (item : Decoder α) : Decoder (List α)
  | .list items => items.mapM item
  | _ => none

/-- A table with arbitrary names. -/
def mapping? {α : Type} (item : Decoder α) : Decoder (List (String × α))
  | .table fields => fields.mapM fun (name, value) => (item value).map fun read => (name, read)
  | _ => none

/-- One of several words. A table with that word as its only name, and nothing under it, stands for
the word too. -/
def word? {α : Type} (words : List (String × α)) : Decoder α
  | .text word => words.lookup word
  | .table [(word, .table [])] => words.lookup word
  | .table [(word, .list [])] => words.lookup word
  | _ => none

/-- The values given for the fields of a record, in the order of the fields. -/
abbrev Record := List (Option Value)

namespace Record

/-- The record a table is, for fields of the given names. -/
def ofTable? (names : List String) (fields : Fields) : Option Record :=
  if haveReadable (fields.filter fun field => !names.contains field.1) then
    some (names.map fun name => fields.lookup name)
  else none

/-- The record a value is, for fields of the given names. A date or time is a record too, one that
gives no field. -/
def ofValue? (names : List String) : Decoder Record
  | .table fields => ofTable? names fields
  | .list items => some ((items.take names.length).map some)
  | .moment => some []
  | _ => none

/-- The value of a field, if one is given. -/
def find? (record : Record) (place : Nat) : Option Value := record[place]?.join

/-- A field the record must have. -/
def required? {α : Type} (record : Record) (place : Nat) (decode : Decoder α) : Option α :=
  (record.find? place).bind decode

/-- A field with a default. -/
def field? {α : Type} (record : Record) (place : Nat) (decode : Decoder α) (missing : α) :
    Option α :=
  match record.find? place with
  | some value => decode value
  | none => some missing

end Record

end Menus.Toml
