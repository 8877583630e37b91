import Menus.Toml.Value

/-!
# Putting a TOML document together

A document names its tables piecemeal: by headers, by headers of tables inside them, by dotted keys.
What may still be added to a table depends on how it came to be. A table that only a longer header
has implied can get a header of its own, once. A table that a dotted key has made grows by dotted
keys alone. A value in brackets or braces is complete. Whatever would define something twice is
refused.
-/

namespace Menus.Toml

/-- How an open table came to be. -/
inductive Making where
  /-- A longer header passes through it. -/
  | implied
  /-- It has a header of its own. -/
  | headed
  /-- A dotted key passes through it. -/
  | dotted
deriving DecidableEq, Repr

/-- A part of a document that is being put together. -/
inductive Part where
  /-- A value that is complete. -/
  | closed (value : Value)
  /-- A table that may still grow. -/
  | growing (making : Making) (parts : List (String × Part))
  /-- A list of tables made by doubled headers; the last one may still grow. -/
  | series (done : List (List (String × Part))) (last : List (String × Part))

/-- The parts of a table. -/
abbrev Parts := List (String × Part)

namespace Parts

/-- Replaces what stands under a key. -/
def replace (parts : Parts) (key : String) (part : Part) : Parts :=
  parts.map fun (name, old) => if name == key then (name, part) else (name, old)

/-- Puts a part under a dotted key: `path` leads to the table that takes it. -/
def insert? (key : String) (part : Part) : List String → Parts → Option Parts
  | [], parts => if (parts.lookup key).isSome then none else some (parts ++ [(key, part)])
  | step :: more, parts =>
    match parts.lookup step with
    | none =>
      (insert? key part more []).map fun inner => parts ++ [(step, .growing .dotted inner)]
    | some (.growing making inner) =>
      if making = .headed ∨ (more = [] ∧ making ≠ .dotted) then none
      else
        (insert? key part more inner).map fun grown =>
          replace parts step (.growing making grown)
    | some (.series done last) =>
      if more = [] then none
      else
        (insert? key part more last).map fun grown => replace parts step (.series done grown)
    | some (.closed _) => none

/-- Changes the table that the names of a header lead to. Names that nothing stands under yet imply
tables. -/
def under? (change : Parts → Option Parts) : List String → Parts → Option Parts
  | [], parts => change parts
  | step :: more, parts =>
    match parts.lookup step with
    | none => (under? change more []).map fun inner => parts ++ [(step, .growing .implied inner)]
    | some (.growing making inner) =>
      (under? change more inner).map fun grown => replace parts step (.growing making grown)
    | some (.series done last) =>
      (under? change more last).map fun grown => replace parts step (.series done grown)
    | some (.closed _) => none

/-- Gives the table called `key` its header. -/
def beginTable? (key : String) (parts : Parts) : Option Parts :=
  match parts.lookup key with
  | none => some (parts ++ [(key, .growing .headed [])])
  | some (.growing .implied inner) => some (replace parts key (.growing .headed inner))
  | _ => none

/-- Begins the next table of the series called `key`. -/
def beginElement? (key : String) (parts : Parts) : Option Parts :=
  match parts.lookup key with
  | none => some (parts ++ [(key, .series [] [])])
  | some (.series done last) => some (replace parts key (.series (done ++ [last]) []))
  | _ => none

end Parts

mutual

/-- A part as a value. -/
def Part.value : Part → Value
  | .closed value => value
  | .growing _ parts => .table (fieldsOf parts)
  | .series done last => .list (tablesOf done ++ [.table (fieldsOf last)])

/-- The parts of a table as fields. -/
def fieldsOf : List (String × Part) → Fields
  | [] => []
  | (name, part) :: rest => (name, part.value) :: fieldsOf rest

/-- The tables of a series as values. -/
def tablesOf : List (List (String × Part)) → List Value
  | [] => []
  | parts :: rest => .table (fieldsOf parts) :: tablesOf rest

end

end Menus.Toml
