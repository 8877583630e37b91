import Menus.FileSystem.Node
import Menus.Path

/-!
# File systems

Definitions are read from files, and what was read is kept in files, so the file system is a value
here: a tree of directories, files and links, and the directory in which relative paths begin.
Reading answers from such a value, and writing gives another one.

A path is walked one piece at a time. A name leads into the directory reached so far, `..` leads out
of it, and a link leads wherever its target does; a walk gives up after forty links. A path that is
too long is refused before its first step. A slash at its end asks for a directory, so nothing else
is used, written, linked or removed by such a path.
-/

namespace Menus

/-- Why a file or directory could not be used. -/
inductive AccessError where
  | notFound
  | notDirectory
  | isDirectory
  | alreadyExists
  | tooManyLinks
  | nameTooLong
  /-- A character that no path can hold. -/
  | nulInPath
  /-- The content is not UTF-8. -/
  | notText
deriving DecidableEq, Repr

/-- The error in words. -/
def AccessError.message : AccessError → String
  | notFound => "No such file or directory (os error 2)"
  | notDirectory => "Not a directory (os error 20)"
  | isDirectory => "Is a directory (os error 21)"
  | alreadyExists => "File exists (os error 17)"
  | tooManyLinks => "Too many levels of symbolic links (os error 40)"
  | nameTooLong => "File name too long (os error 36)"
  | nulInPath => "file name contained an unexpected NUL byte"
  | notText => "stream did not contain valid UTF-8"

/-- Files, directories and links. -/
structure FileSystem where
  /-- What is in the root directory. -/
  top : List (String × Node) := []
  /-- Where relative paths begin. -/
  workingDirectory : Location := []

/-- What the end of a path is wanted for. -/
inductive Aim where
  /-- To be used: it has to exist, and a link there is followed. -/
  | use
  /-- To be filled: it may be missing, and a link there is followed. -/
  | fill
  /-- As an entry of its directory: it may be missing, and whatever is there is taken itself. -/
  | entry
deriving DecidableEq, Repr

/-- The way a walk has come: the names it has entered, innermost first, each with what stands
there. -/
abbrev Trail := List (String × Node)

/-- Where a trail has led. -/
def Trail.location (trail : Trail) : Location := (trail.map Prod.fst).reverse

namespace FileSystem

/-- The root directory. -/
def root (system : FileSystem) : Node := .directory system.top

/-- What stands at a location. -/
def node? (system : FileSystem) (location : Location) : Option Node :=
  system.root.find? location

/-- A directory stands at the location. -/
def isDirectoryAt (system : FileSystem) (location : Location) : Bool :=
  (system.node? location).any Node.isDirectory

/-- The locations at which something stands, the root apart. -/
def locations (system : FileSystem) : List Location := system.root.locations

/-- The number of links a walk follows before it gives up. -/
def linkLimit : Nat := 40

/-- The number of bytes a name may have. -/
def nameLimit : Nat := 255

/-- The pieces of a path. -/
def piecesOf (path : String) : List String :=
  (Path.pieces path.toList).map String.ofList

/-- The number of bytes a path may have. -/
def pathLimit : Nat := 4095

/-- Where the walk along a path begins, seen from a directory: an absolute path begins with no name
entered. -/
def startOf {α : Type} (directory : List α) (path : String) : List α :=
  if path.toList.head? = some '/' then [] else directory

/-- What a trail has led to. -/
def reached (system : FileSystem) : Trail → Node
  | [] => system.root
  | (_, node) :: _ => node

/-- The trail that goes on by names alone. -/
def enter? (system : FileSystem) : Location → Trail → Option Trail
  | [], trail => some trail
  | name :: rest, trail =>
    match (system.reached trail).entries.lookup name with
    | some node => system.enter? rest ((name, node) :: trail)
    | none => none

/-- Walks along pieces of a path from where a trail has led, following at most `links` links. Only
the last name may be missing, and no file is to be filled under a name with a slash behind it. -/
def walk (system : FileSystem) (aim : Aim) (links : Nat) (trail : Trail) :
    List String → Except AccessError Location
  | [] => .ok trail.location
  | piece :: rest =>
    match system.reached trail with
    | .directory entries =>
      if piece = "" ∨ piece = "." then walk system aim links trail rest
      else if piece = ".." then walk system aim links trail.tail rest
      else if nameLimit < piece.utf8ByteSize then .error .nameTooLong
      else
        let atEnd := rest.all String.isEmpty
        match entries.lookup piece with
        | none =>
          if !atEnd || aim = .use then .error .notFound
          else if rest ≠ [] ∧ aim = .fill then .error .isDirectory
          else .ok (trail.location ++ [piece])
        | some node =>
          if atEnd ∧ aim = .entry then .ok (trail.location ++ [piece])
          else
            match node, links with
            | .link _, 0 => .error .tooManyLinks
            | .link target, links + 1 =>
              walk system aim links (startOf trail target) (piecesOf target ++ rest)
            | node, links => walk system aim links ((piece, node) :: trail) rest
    | _ => .error .notDirectory
termination_by pieces => (links, pieces.length)

/-- Walks along a path. -/
def follow (system : FileSystem) (aim : Aim) (path : String) : Except AccessError Location :=
  let start :=
    if path.toList.head? = some '/' then some []
    else system.enter? system.workingDirectory []
  match start with
  | none => .error .notFound
  | some trail => system.walk aim linkLimit trail (piecesOf path)

/-- Why a text is no path, if it is none. -/
def flawOf? (path : String) : Option AccessError :=
  if path.isEmpty then some .notFound
  else if path.toList.contains '\x00' then some .nulInPath
  else none

/-- The location a path leads to, whatever its length. -/
def locate (system : FileSystem) (aim : Aim) (path : String) : Except AccessError Location :=
  match flawOf? path with
  | some cause => .error cause
  | none => system.follow aim path

/-- Why a path is refused before its first step, if it is. -/
def refusalOf? (path : String) : Option AccessError :=
  match flawOf? path with
  | some cause => some cause
  | none => if pathLimit < path.utf8ByteSize then some .nameTooLong else none

/-- The location a path leads to, unless the path is too long. -/
def resolve (system : FileSystem) (aim : Aim) (path : String) : Except AccessError Location :=
  match refusalOf? path with
  | some cause => .error cause
  | none => system.follow aim path

/-- The path asks for a directory. -/
def endsInSlash (path : String) : Bool := path.toList.getLast? == some '/'

/-- The path leads to something. -/
def isPresent (system : FileSystem) (path : String) : Bool :=
  match system.resolve .use path with
  | .ok _ => true
  | .error _ => false

/-- The path leads to a directory. -/
def isDirectory (system : FileSystem) (path : String) : Bool :=
  match system.resolve .use path with
  | .ok location => system.isDirectoryAt location
  | .error _ => false

/-- The content of the file at a location. -/
def contentAt (system : FileSystem) (location : Location) : Except AccessError ByteArray :=
  match system.node? location with
  | some (.file content) => .ok content
  | some (.directory _) => .error .isDirectory
  | _ => .error .notFound

/-- The content of the file a path leads to. -/
def content (system : FileSystem) (path : String) : Except AccessError ByteArray := do
  system.contentAt (← system.resolve .use path)

/-- A content as text. -/
def asText (content : ByteArray) : Except AccessError String :=
  match String.fromUTF8? content with
  | some text => .ok text
  | none => .error .notText

/-- The content of the file at a location, as text. The file is opened by the path of the location, and
that may be too long. -/
def textAt (system : FileSystem) (location : Location) : Except AccessError String :=
  match refusalOf? location.path with
  | some cause => .error cause
  | none => do asText (← system.contentAt location)

/-- The bytes of a text are read as that text. -/
theorem fromUTF8?_toUTF8 (text : String) : String.fromUTF8? text.toUTF8 = some text := by
  unfold String.fromUTF8?
  split
  · rfl
  · next malformed => exact absurd text.isValidUTF8 malformed

/-- The content of the file a path leads to, as text. -/
def text (system : FileSystem) (path : String) : Except AccessError String := do
  asText (← system.contentAt (← system.resolve .use path))

/-- The names of the entries of a directory, in order. -/
def entryNames (system : FileSystem) (directory : Location) : List String :=
  let entries := ((system.node? directory).map Node.entries).getD []
  (entries.map Prod.fst).mergeSort fun first second =>
    !Text.precedes second.toList first.toList

/-- The names of the entries of the directory a path leads to. -/
def entries (system : FileSystem) (path : String) : Except AccessError (List String) := do
  let location ← system.resolve .use path
  if system.isDirectoryAt location then .ok (system.entryNames location)
  else .error .notDirectory

/-- The files below a directory, at any depth, in the order of their paths. Links are passed
over. -/
def filesBelow (system : FileSystem) (directory : Location) : List Location :=
  match system.node? directory with
  | none => []
  | some node =>
    let below := node.locations.filter fun location => (node.find? location).any Node.isFile
    (below.map (directory ++ ·)).mergeSort fun first second => !Location.precedes second first

/-- Puts something at a location, in place of what stood there. -/
def put (system : FileSystem) (location : Location) (node : Node) : FileSystem :=
  { system with top := (system.root.replace (some node) location).entries }

/-- Takes away what stands at a location and below it. -/
def takeAway (system : FileSystem) (location : Location) : FileSystem :=
  { system with top := (system.root.replace none location).entries }

/-- Writes a file, in place of the one the path leads to, if any. -/
def write (system : FileSystem) (path : String) (content : ByteArray) :
    Except AccessError FileSystem := do
  let location ← system.resolve .fill path
  if system.isDirectoryAt location then .error .isDirectory
  else .ok (system.put location (.file content))

/-- Puts a link where nothing is. -/
def link (system : FileSystem) (path target : String) : Except AccessError FileSystem :=
  match refusalOf? target with
  | some cause => .error cause
  | none => do
    let location ← system.resolve .entry path
    if (system.node? location).isSome then .error .alreadyExists
    else if endsInSlash path then .error .notFound
    else .ok (system.put location (.link target))

/-- Removes a file or a link, but no directory. -/
def removeFile (system : FileSystem) (path : String) : Except AccessError FileSystem := do
  let location ← system.resolve .entry path
  match system.node? location with
  | none => .error .notFound
  | some (.directory _) => .error .isDirectory
  | some _ => if endsInSlash path then .error .notDirectory else .ok (system.takeAway location)

/-- Removes a file, a link, or a directory with all that is in it. -/
def removeTree (system : FileSystem) (path : String) : Except AccessError FileSystem := do
  let location ← system.resolve .entry path
  match system.node? location with
  | none => .error .notFound
  | some (.directory _) => .ok (system.takeAway location)
  | some _ => system.removeFile path

/-- Creates a directory in one that exists. -/
def createDirectory (system : FileSystem) (path : String) : Except AccessError FileSystem := do
  let location ← system.resolve .entry path
  if (system.node? location).isSome then .error .alreadyExists
  else .ok (system.put location (.directory []))

/-- Creates a directory. If what is around it is missing, that is created first by `around`. A
directory that is there already is left alone, and one that was created stays even where a later one
cannot be. -/
def establish (system : FileSystem) (path : String)
    (around : FileSystem → FileSystem × Except AccessError Unit) :
    FileSystem × Except AccessError Unit :=
  let settle (system : FileSystem) : Except AccessError FileSystem →
      FileSystem × Except AccessError Unit
    | .ok grown => (grown, .ok ())
    | .error cause => (system, if system.isDirectory path then .ok () else .error cause)
  match system.createDirectory path with
  | .error .notFound =>
    match around system with
    | (grown, .ok ()) => settle grown (grown.createDirectory path)
    | (grown, .error cause) => (grown, .error cause)
  | outcome => settle system outcome

/-- Creates the directory that pieces of a path lead to, the last piece first, and those around it
that are missing. -/
def createThrough (system : FileSystem) :
    List (List Char) → FileSystem × Except AccessError Unit
  | [] => (system, .ok ())
  | piece :: around =>
    if (Path.stepOf? piece).isNone then system.createThrough around
    else
      system.establish (String.ofList (Path.join (piece :: around).reverse)) fun system =>
        system.createThrough around

/-- Creates the directories around a path that are missing. -/
def createParents (system : FileSystem) (path : String) : FileSystem × Except AccessError Unit :=
  system.createThrough (Path.around path.toList)

/-- Creates a directory and those around it that are missing. -/
def createDirectories (system : FileSystem) (path : String) :
    FileSystem × Except AccessError Unit :=
  if path.isEmpty then (system, .ok ())
  else system.establish path fun system => system.createParents path

end FileSystem

end Menus
