import Menus.CommandLine.Commands

/-!
# What a command looks at

A command works on a file system as a value, and no command needs all of a disk. From the files that
are known so far one can tell which further ones a command will look at: those on the paths of the
settings, the cache, the definitions and the context, and then those that known definitions include.
Asking again with what was found, until nothing more is asked for, gives all that the command needs.
-/

namespace Menus

namespace FileSystem

/-- The locations at which a walk along pieces of a path looks. -/
def lookups (system : FileSystem) (links : Nat) (reached : Location) : List String → List Location
  | [] => []
  | piece :: rest =>
    if !system.isDirectoryAt reached then []
    else if piece = "" ∨ piece = "." then lookups system links reached rest
    else if piece = ".." then lookups system links reached.dropLast rest
    else
      let next := reached ++ [piece]
      match system.node? next with
      | none => [next]
      | some (.link target) =>
        match links with
        | 0 => [next]
        | links + 1 =>
          next :: lookups system links (startOf reached target) (piecesOf target ++ rest)
      | some _ => next :: lookups system links next rest
termination_by pieces => (links, pieces.length)

/-- The locations at which resolving a path looks. -/
def lookupsOf (system : FileSystem) (path : String) : List Location :=
  system.lookups linkLimit (startOf system.workingDirectory path) (piecesOf path)

end FileSystem

namespace Host

/-- The settings as far as they can be read. -/
def settingsIn (host : Host) (files : FileSystem) : Settings :=
  match files.settings host.settingsPath with
  | .ok settings => settings
  | .error _ => {}

/-- The arguments behind the name of a command, as far as they can be read. -/
def argumentsIn (list : List String) : Arguments :=
  let (command, own) :=
    match list with
    | [] => (some Command.expand, [])
    | name :: own => (Command.ofName? name, own)
  match Arguments.read ((command.map Command.usage).getD {}) own with
  | .ok arguments => arguments
  | .error _ => {}

/-- The path of the definitions that a command loads. -/
def definitionPath? (host : Host) (files : FileSystem) (list : List String) : Option String :=
  let expanded := Path.ofUser host.environment.valueOf host.environment.home
  ((argumentsIn list).value? "file").map expanded <|>
    (host.settingsIn files).definitionPath host.environment

/-- The paths that a command may use, as far as the known files tell. -/
def pathsOf (host : Host) (files : FileSystem) (list : List String) : List String :=
  let directory := host.cacheDirectory (host.settingsIn files)
  let definitions :=
    match host.definitionPath? files list with
    | none => []
    | some path =>
      let record :=
        match files.definitions path with
        | .ok root => [host.scheme.recordPath directory (Location.path root)]
        | .error _ => []
      let missing :=
        match files.read host.scheme.digest path with
        | .ok loaded => loaded.missing
        | .error _ => []
      path :: (record ++ missing)
  [host.settingsPath, directory] ++ ((argumentsIn list).value? "context").toList ++ definitions

/-- The directories that a command may list, with the extension of the files it wants of each. -/
def listingsOf (host : Host) (files : FileSystem) (list : List String) :
    List (Location × List Char) :=
  let directoryOf (path : String) : Option Location :=
    match files.resolve .use path with
    | .ok location => if files.isDirectoryAt location then some location else none
    | .error _ => none
  let cache := directoryOf (host.cacheDirectory (host.settingsIn files))
  let definitions := (host.definitionPath? files list).bind directoryOf
  (cache.map (·, CacheScheme.extension)).toList ++ (definitions.map (·, "ui".toList)).toList

/-- The locations that a command may look at, as far as the known files tell. -/
def lookupsOf (host : Host) (files : FileSystem) (list : List String) : List Location :=
  (host.pathsOf files list).flatMap files.lookupsOf

end Host

end Menus
