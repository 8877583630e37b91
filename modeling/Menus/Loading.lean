import Menus.FileSystem
import Menus.Registry

/-!
# Loading definitions

The definitions of an application are one file, or a directory of fragments read in the order of
their paths. A file can include others: what they say counts as said at that place. Paths of
included files are seen from the directory of the file that names them.

Every file is read once, where it is met first; that it was met is known by its location, so two
paths to one file count as one. The files being read form a stack. Each step either handles a
statement of the innermost file, or opens a file that was not met before, and there are only
finitely many of those: the reading ends whatever the files include.

The reading gathers statements for one registry. The problems of a file are reported when its end is
reached, after those of the files it included.
-/

namespace Menus

/-- A file that was read, with the digest of what it said. -/
structure Source where
  location : Location
  digest : String
deriving DecidableEq, Repr

/-- What a load gives. -/
structure Loaded where
  registry : Registry
  /-- The problems found; none when nothing had to be read. -/
  diagnostics : List Diagnostic
  /-- The files read, in the order in which they were met. -/
  sources : List Source
  /-- The fragments of a directory; none when a file was loaded. -/
  fragments : List Location
  /-- The paths of files that could not be included. -/
  missing : List String
  /-- The templates were kept from an earlier load. -/
  fromCache : Bool

/-- Why nothing could be loaded. -/
inductive LoadError where
  /-- The path leads to nothing. -/
  | notFound (path : String)
  /-- A file that is not an included one could not be read. -/
  | unreadable (path : String) (cause : AccessError)
  /-- The directory holds no fragments. -/
  | noFragments (path : String)
deriving DecidableEq, Repr

namespace LoadError

/-- The error in words. -/
def message : LoadError → String
  | notFound path => s!"UI definition '{path}' does not exist."
  | unreadable path cause => s!"Could not read UI definition '{path}': {cause.message}"
  | noFragments path => s!"No '*.ui' fragments found below '{path}'."

/-- What lies behind the error, in words. -/
def cause? : LoadError → Option String
  | unreadable _ cause => some cause.message
  | _ => none

end LoadError

/-- What was gathered while reading. -/
structure Reading where
  registry : Registry := {}
  diagnostics : List Diagnostic := []
  sources : List Source := []
  missing : List String := []

/-- A file whose end is not reached yet. -/
structure OpenFile where
  location : Location
  /-- What is left to handle. -/
  statements : List Statement
  /-- The problems found so far. -/
  problems : List Diagnostic

namespace OpenFile

/-- Opens a file with the given text. -/
def ofText (location : Location) (text : String) : OpenFile :=
  let tokens := Token.ofText text
  { location
    statements := Statement.readFile (Location.path location) tokens
    problems := Diagnostic.ofTokens (Location.path location) tokens }

/-- The path of a file that this one includes under `name`. A name without an extension is that of
a definition file. -/
def inclusionPath (file : OpenFile) (name : String) : String :=
  let directory := Location.path file.location.dropLast
  let path := Path.inDirectory directory.toList name.toList
  String.ofList (if (Path.extension? path).isNone then Path.addExtension "ui".toList path else path)

/-- The file with one problem more. -/
def report (file : OpenFile) (problem : Diagnostic) : OpenFile :=
  { file with problems := file.problems ++ [problem] }

end OpenFile

/-- The work left in open files: their statements, and reaching their ends. -/
def workLeft : List OpenFile → Nat
  | [] => 0
  | file :: outer => file.statements.length + 1 + workLeft outer

namespace FileSystem

/-- The file a path leads to, with its text. The path is walked name by name, so its length does not
matter; that of the location it leads to does. -/
def locatedText (system : FileSystem) (path : String) : Except AccessError (Location × String) := do
  let location ← system.locate .use path
  return (location, ← system.textAt location)

/-- A text is read from something that stands in the file system. -/
theorem mem_locations_of_textAt {system : FileSystem} {location : Location} {text : String}
    (read : system.textAt location = .ok text) : location ∈ system.locations := by
  unfold textAt contentAt at read
  split at read
  · cases read
  · cases standing : system.node? location with
    | none => simp [standing, bind, Except.bind] at read
    | some node =>
      rcases Node.mem_locations_of_find? standing with atRoot | below
      · subst atRoot
        simp only [node?, Node.find?, Option.some.injEq] at standing
        subst standing
        simp [node?, Node.find?, root, bind, Except.bind] at read
      · exact below

/-- An included file stands in the file system. -/
theorem mem_locations_of_locatedText {system : FileSystem} {path text : String}
    {location : Location} (read : system.locatedText path = .ok (location, text)) :
    location ∈ system.locations := by
  unfold locatedText at read
  cases located : system.locate .use path with
  | error cause => simp [located, bind, Except.bind] at read
  | ok found =>
    cases taken : system.textAt found with
    | error cause => simp [located, taken, bind, Except.bind] at read
    | ok content =>
      simp [located, taken, bind, Except.bind, pure, Except.pure] at read
      exact read.1 ▸ mem_locations_of_textAt taken

end FileSystem

namespace Reading

/-- The file was met before. -/
def hasRead (reading : Reading) (location : Location) : Bool :=
  reading.sources.any fun source => source.location == location

/-- Notes that a file was met. -/
def meet (reading : Reading) (digest : ByteArray → String) (location : Location)
    (text : String) : Reading :=
  { reading with sources := reading.sources ++ [⟨location, digest text.toUTF8⟩] }

/-- The locations of files not met yet. -/
def unread (reading : Reading) (system : FileSystem) : List Location :=
  system.locations.filter fun location => !reading.hasRead location

/-- The files still to be met are fewer after one is met. -/
theorem unread_meet_length {reading : Reading} {system : FileSystem} {location : Location}
    (standing : location ∈ system.locations) (fresh : reading.hasRead location = false)
    (digest : ByteArray → String) (text : String) :
    ((reading.meet digest location text).unread system).length <
      (reading.unread system).length := by
  have narrower : (reading.meet digest location text).unread system =
      (reading.unread system).filter fun other => other ≠ location := by
    simp only [unread, List.filter_filter]
    apply List.filter_congr
    intro other _
    by_cases same : other = location
    · simp [meet, hasRead, same]
    · simp [meet, hasRead, same, Ne.symm same]
  rw [narrower]
  apply List.length_filter_lt_length_iff_exists.mpr
  exact ⟨location, by simp [unread, standing, fresh], by simp⟩

/-- Reads on until no file is open. -/
def finish (system : FileSystem) (digest : ByteArray → String) (reading : Reading) :
    List OpenFile → Reading
  | [] => reading
  | file :: outer =>
    match _left : file.statements with
    | [] =>
      finish system digest { reading with diagnostics := reading.diagnostics ++ file.problems }
        outer
    | .contribute contribution :: rest =>
      finish system digest
        { reading with registry := reading.registry.contribute contribution }
        ({ file with statements := rest } :: outer)
    | .problem problem :: rest =>
      finish system digest reading ({ file.report problem with statements := rest } :: outer)
    | .inclusion name line :: rest =>
      let path := file.inclusionPath name
      match _found : system.locatedText path with
      | .ok (location, text) =>
        if _met : reading.hasRead location then
          finish system digest reading ({ file with statements := rest } :: outer)
        else
          finish system digest (reading.meet digest location text)
            (.ofText location text :: { file with statements := rest } :: outer)
      | .error cause =>
        let problem :=
          Diagnostic.inclusionFailed (Location.path file.location) line name cause.message
        finish system digest { reading with missing := reading.missing ++ [path] }
          ({ file.report problem with statements := rest } :: outer)
termination_by stack => ((reading.unread system).length, workLeft stack)
decreasing_by
  rotate_left 4
  · exact Prod.Lex.left _ _ (unread_meet_length
      (FileSystem.mem_locations_of_locatedText _found) (by simpa using _met) digest text)
  all_goals
    apply Prod.Lex.right
    simp only [workLeft, _left, List.length_nil, List.length_cons]
    omega

/-- Reads a file that is not an included one, unless it was met before. -/
def readRoot (system : FileSystem) (digest : ByteArray → String) (reading : Reading)
    (location : Location) : Except LoadError Reading :=
  match system.textAt location with
  | .error cause => .error (.unreadable (Location.path location) cause)
  | .ok text =>
    if reading.hasRead location then .ok reading
    else
      .ok ((reading.meet digest location text).finish system digest [.ofText location text])

end Reading

namespace FileSystem

/-- The location of the definitions at a path. -/
def definitions (system : FileSystem) (path : String) : Except LoadError Location :=
  match system.resolve .use path with
  | .ok location => .ok location
  | .error _ => .error (.notFound path)

/-- The fragments of the definitions at a location. A file has none. -/
def fragments (system : FileSystem) (root : Location) : List Location :=
  if system.isDirectoryAt root then
    (system.filesBelow root).filter fun location =>
      (location.getLast?.bind fun name => Path.extensionOfName? name.toList) = some "ui".toList
  else []

/-- Reads the definitions at a location. -/
def readAt (system : FileSystem) (digest : ByteArray → String) (root : Location) :
    Except LoadError Loaded := do
  let fragments := system.fragments root
  let roots ←
    if system.isDirectoryAt root then
      if fragments.isEmpty then .error (.noFragments (Location.path root)) else .ok fragments
    else .ok [root]
  let reading ← roots.foldlM (Reading.readRoot system digest) {}
  return {
    registry := reading.registry
    diagnostics := reading.diagnostics
    sources := reading.sources
    fragments
    missing := reading.missing
    fromCache := false }

/-- Reads the definitions a path leads to. -/
def read (system : FileSystem) (digest : ByteArray → String) (path : String) :
    Except LoadError Loaded := do
  system.readAt digest (← system.definitions path)

end FileSystem

end Menus
