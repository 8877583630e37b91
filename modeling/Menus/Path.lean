/-!
# Paths as text

A path is a text whose steps are divided by `/`. Empty pieces and pieces `.` take no step, except a
`.` that opens a relative path; a piece `..` steps up, and nothing is resolved against a file
system. The operations keep the text between the steps they look at as it was written.
-/

namespace Menus.Path

/-- A step of a path. -/
inductive Step where
  /-- To the root: the path is absolute. -/
  | root
  /-- To where one stands, written at the start of a relative path. -/
  | here
  /-- To the containing directory. -/
  | up
  /-- Into a named entry. -/
  | into (name : List Char)
deriving DecidableEq, Repr

/-- The pieces between slashes. There is always at least one. -/
def pieces : List Char → List (List Char)
  | [] => [[]]
  | c :: rest =>
    if c = '/' then [] :: pieces rest
    else
      match pieces rest with
      | [] => [[c]]
      | first :: others => (c :: first) :: others

/-- The pieces with slashes between them. -/
def join : List (List Char) → List Char
  | [] => []
  | [piece] => piece
  | piece :: rest => piece ++ '/' :: join rest

/-- The step a piece takes behind the start of a path, if any. -/
def stepOf? (piece : List Char) : Option Step :=
  if piece = [] ∨ piece = ['.'] then none
  else if piece = ['.', '.'] then some .up
  else some (.into piece)

/-- The step that only the start of a path can take, and the pieces behind it. -/
def start (path : List Char) : Option Step × List (List Char) :=
  match path with
  | [] => (none, [])
  | c :: rest =>
    if c = '/' then (some .root, pieces rest)
    else
      match pieces (c :: rest) with
      | [] => (none, [])
      | first :: others =>
        if first = ['.'] then (some .here, others) else (none, first :: others)

/-- The steps of a path. -/
def steps (path : List Char) : List Step :=
  (start path).1.toList ++ (start path).2.filterMap stepOf?

/-- The pieces without those at either end that take no step. -/
def trimPieces (list : List (List Char)) : List (List Char) :=
  let idle := fun piece => (stepOf? piece).isNone
  ((list.dropWhile idle).reverse.dropWhile idle).reverse

/-- The pieces behind the given steps, if the pieces take them. -/
def behind? : List Step → List (List Char) → Option (List (List Char))
  | [], rest => some rest
  | _ :: _, [] => none
  | step :: steps, piece :: rest =>
    match stepOf? piece with
    | none => behind? (step :: steps) rest
    | some taken => if taken = step then behind? steps rest else none

/-- What is left of a path behind a directory that contains it, step by step. A longer name is not
below a shorter one, and doubled slashes do not hide the directory. -/
def below? (directory path : List Char) : Option (List Char) :=
  let taken :=
    match steps directory, start path with
    | step :: others, (some first, rest) =>
      if first = step then behind? others rest else none
    | [], (some _, _) => none
    | expected, (none, rest) => behind? expected rest
  taken.map fun rest => join (trimPieces rest)

/-- The name of the entry a path ends in. A path that ends in a step up has none. -/
def fileName? (path : List Char) : Option (List Char) :=
  match (steps path).getLast? with
  | some (.into name) => some name
  | _ => none

/-- What follows the last dot of a name, unless nothing stands before it. -/
def extensionOfName? (name : List Char) : Option (List Char) :=
  let after := (name.reverse.takeWhile (· ≠ '.')).reverse
  if after.length + 1 < name.length then some after else none

/-- The extension of the entry a path ends in. -/
def extension? (path : List Char) : Option (List Char) :=
  (fileName? path).bind extensionOfName?

/-- Gives a path that has no extension one. The pieces behind the name that take no step are lost;
a path without a name is left alone. -/
def addExtension (extension path : List Char) : List Char :=
  match fileName? path with
  | none => path
  | some _ =>
    let idle := fun piece => (stepOf? piece).isNone
    join ((pieces path).reverse.dropWhile idle).reverse ++ '.' :: extension

/-- The path seen from a directory: an absolute path stays as it is. -/
def inDirectory (directory path : List Char) : List Char :=
  match path.head? with
  | some '/' => path
  | _ =>
    match directory.getLast? with
    | none => path
    | some '/' => directory ++ path
    | some _ => directory ++ '/' :: path

/-- The pieces of a path in front of its last step, the last of them first. -/
def around (path : List Char) : List (List Char) :=
  ((pieces path).reverse.dropWhile fun piece => (stepOf? piece).isNone).tail

/-- A path has a piece, even when it is empty. -/
theorem pieces_ne_nil (path : List Char) : pieces path ≠ [] := by
  cases path with
  | nil => simp [pieces]
  | cons c rest =>
    unfold pieces
    split
    · simp
    · split <;> simp

/-- Dividing a path at its slashes loses nothing. -/
theorem join_pieces (path : List Char) : join (pieces path) = path := by
  induction path with
  | nil => rfl
  | cons c rest inductionHypothesis =>
    unfold pieces
    cases divided : pieces rest with
    | nil => exact absurd divided (pieces_ne_nil rest)
    | cons first others =>
      rw [divided] at inductionHypothesis
      split
      · next slash => simp [join, inductionHypothesis, slash]
      · cases others <;> simp_all [join]

end Menus.Path
