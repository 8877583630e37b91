/-!
# Values as fields

What is kept in a cache file is a run of fields, each a text. A form says how a value is written as
fields, and reads one from the front of a longer run. A form may leave out what need not be kept;
`Form.Keeps` says what reading gives of a value that was written, and carries over from the parts of
a form to the whole.

In a file each field takes a line. A line break inside a field is written `\n`, a backslash twice.
-/

namespace Menus

/-- How values are written as fields, and read from the front of a run of fields. -/
structure Form (α : Type) where
  write : α → List String
  read : List String → Option (α × List String)

namespace Form

variable {α β : Type}

/-- Of a value that was written, reading gives `kept`, and it leaves what follows. -/
def Keeps (form : Form α) (kept : α → α) : Prop :=
  ∀ value rest, form.read (form.write value ++ rest) = some (kept value, rest)

/-- A text is one field. -/
def text : Form String where
  write value := [value]
  read
    | [] => none
    | field :: rest => some (field, rest)

theorem keeps_text : text.Keeps id := fun _ _ => rfl

/-- A truth value is one field. -/
def flag : Form Bool where
  write value := [if value then "yes" else "no"]
  read
    | "yes" :: rest => some (true, rest)
    | "no" :: rest => some (false, rest)
    | _ => none

theorem keeps_flag : flag.Keeps id := by
  intro value rest
  cases value <;> rfl

/-- Reads a number written as marks. -/
def readMarks : List String → Option (Nat × List String)
  | "+" :: rest => (readMarks rest).map fun (number, rest) => (number + 1, rest)
  | "." :: rest => some (0, rest)
  | _ => none

/-- A number is that many marks and a stop. -/
def number : Form Nat where
  write value := List.replicate value "+" ++ ["."]
  read := readMarks

theorem keeps_number : number.Keeps id := by
  intro value rest
  induction value with
  | zero => rfl
  | succ value inductionHypothesis =>
    simp only [number, List.replicate_succ, List.cons_append, readMarks, id] at *
    rw [inductionHypothesis]
    rfl

/-- One value and then another. -/
def pair (first : Form α) (second : Form β) : Form (α × β) where
  write value := first.write value.1 ++ second.write value.2
  read fields := do
    let (left, fields) ← first.read fields
    let (right, fields) ← second.read fields
    return ((left, right), fields)

theorem Keeps.pair {first : Form α} {second : Form β} {keptLeft : α → α} {keptRight : β → β}
    (left : first.Keeps keptLeft) (right : second.Keeps keptRight) :
    (first.pair second).Keeps fun value => (keptLeft value.1, keptRight value.2) := by
  intro value rest
  simp [Form.pair, List.append_assoc, left value.1, right value.2]

/-- A value written as another one that stands for it. -/
def through (form : Form α) (write : β → α) (read : α → Option β) : Form β where
  write value := form.write (write value)
  read fields := do
    let (value, fields) ← form.read fields
    return (← read value, fields)

theorem Keeps.through {form : Form α} {keptInside : α → α} (keeps : form.Keeps keptInside)
    {write : β → α} {read : α → Option β} {kept : β → β}
    (inverse : ∀ value, read (keptInside (write value)) = some (kept value)) :
    (form.through write read).Keeps kept := by
  intro value rest
  simp [Form.through, keeps (write value), inverse]

/-- Reads a given number of values. -/
def readMany (read : List String → Option (α × List String)) :
    Nat → List String → Option (List α × List String)
  | 0, fields => some ([], fields)
  | count + 1, fields => do
    let (value, fields) ← read fields
    let (values, fields) ← readMany read count fields
    return (value :: values, fields)

/-- A list is its length and then its members. -/
def list (form : Form α) : Form (List α) where
  write values := number.write values.length ++ values.flatMap form.write
  read fields := do
    let (count, fields) ← number.read fields
    readMany form.read count fields

/-- As many values as were written are read back. -/
theorem readMany_flatMap {form : Form α} {kept : α → α} (keeps : form.Keeps kept)
    (values : List α) (rest : List String) :
    readMany form.read values.length (values.flatMap form.write ++ rest) =
      some (values.map kept, rest) := by
  induction values with
  | nil => rfl
  | cons value values inductionHypothesis =>
    simp [readMany, List.append_assoc, keeps value, inductionHypothesis]

theorem Keeps.list {form : Form α} {kept : α → α} (keeps : form.Keeps kept) :
    form.list.Keeps (List.map kept) := by
  intro values rest
  simp only [Form.list, List.append_assoc]
  rw [keeps_number]
  exact readMany_flatMap keeps values rest

end Form

namespace Field

/-- A field as it stands in its line. -/
def escape : List Char → List Char
  | [] => []
  | '\\' :: rest => '\\' :: '\\' :: escape rest
  | '\n' :: rest => '\\' :: 'n' :: escape rest
  | c :: rest => c :: escape rest

/-- Fields as lines. -/
def toLines (fields : List String) : List Char :=
  fields.flatMap fun field => escape field.toList ++ ['\n']

/-- Reads lines as fields; `front` is what was read of the first one, backwards. -/
def ofLines? (front : List Char) : List Char → Option (List String)
  | [] => if front.isEmpty then some [] else none
  | '\\' :: '\\' :: rest => ofLines? ('\\' :: front) rest
  | '\\' :: 'n' :: rest => ofLines? ('\n' :: front) rest
  | '\\' :: _ => none
  | '\n' :: rest => (ofLines? [] rest).map (String.ofList front.reverse :: ·)
  | c :: rest => ofLines? (c :: front) rest

/-- What was written of a field is read back. -/
theorem ofLines?_escape (field front rest : List Char) :
    ofLines? front (escape field ++ rest) = ofLines? (field.reverse ++ front) rest := by
  induction field generalizing front with
  | nil => rfl
  | cons c field inductionHypothesis =>
    unfold escape
    split
    · next contradiction => cases contradiction
    · next tail same =>
      cases same
      simp [ofLines?, inductionHypothesis]
    · next tail same =>
      cases same
      simp [ofLines?, inductionHypothesis]
    · next d tail noBackslash noBreak same =>
      cases same
      have plain : ofLines? front (c :: (escape field ++ rest)) =
          ofLines? (c :: front) (escape field ++ rest) := by
        conv => lhs; unfold ofLines?
        split <;> simp_all
      rw [List.cons_append, plain, inductionHypothesis]
      simp

/-- Fields written as lines are read back. -/
theorem ofLines?_toLines (fields : List String) : ofLines? [] (toLines fields) = some fields := by
  induction fields with
  | nil => rfl
  | cons field fields inductionHypothesis =>
    have step : toLines (field :: fields) = escape field.toList ++ '\n' :: toLines fields := by
      simp [toLines]
    rw [step, ofLines?_escape]
    simp [ofLines?, inductionHypothesis]

end Field

end Menus
