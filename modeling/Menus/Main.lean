import Menus.CommandLine
import Menus.CommandLine.Reach

/-!
# The program

The outer layer: it finds out about the host, fetches from the disk what a command looks at, runs
the command on that, writes back what changed, and prints.
-/

namespace Menus.Program

/-- A variable of the environment, if it is set to an absolute path. -/
def absoluteVariable (name : String) : IO (Option String) := do
  return (← IO.getEnv name).filter fun value => value.startsWith "/"

/-- The variables that a text may name, with their values. -/
def namedVariables (text : String) : IO (List (String × String)) := do
  let names := ((text.toList.splitBy fun first second =>
    Path.isNameChar first == Path.isNameChar second).map String.ofList).eraseDups
  names.filterMapM fun name => do return (← IO.getEnv name).map (name, ·)

/-- The host, with the variables that the given texts may name. -/
def host (texts : List String) : IO Host := do
  let home := (← IO.getEnv "HOME").getD "/"
  let configuration := (← absoluteVariable "XDG_CONFIG_HOME").getD (Host.within home ".config")
  let caches := (← absoluteVariable "XDG_CACHE_HOME").getD (Host.within home ".cache")
  let pairs ← (Host.cacheVariable :: texts).flatMapM namedVariables
  let styled := (← (← IO.getStdout).isTty) && (← IO.getEnv "NO_COLOR").isNone
  return { environment := ⟨home, .ofList pairs⟩, configuration, caches, styled }

/-- What stands at a location of the disk. -/
def fetch (location : Location) : IO (Option Node) := do
  let path := (← IO.currentDir) / Location.path location
  try
    match (← path.symlinkMetadata).type with
    | .dir => return some (.directory [])
    | .symlink => return some (.link (toString (← IO.FS.realPath path)))
    | _ => return some (.file (← IO.FS.readBinFile path))
  catch _ => return none

/-- Adds a directory at a location, unless it is known already. -/
def withDirectory (files : FileSystem) (location : Location) : FileSystem :=
  if files.isDirectoryAt location then files else files.put location (.directory [])

/-- Adds what stands at a location. -/
def learn (files : FileSystem) (location : Location) : IO FileSystem := do
  match ← fetch location with
  | some (.directory _) => return withDirectory files location
  | some node => return files.put location node
  | none => return files

/-- Adds the files with an extension that are below a directory. -/
partial def survey (files : FileSystem) (directory : Location) (extension : List Char) :
    IO FileSystem := do
  let path := (← IO.currentDir) / Location.path directory
  let entries ← try path.readDir catch _ => pure #[]
  entries.foldlM (fun files entry => do
    let location := directory ++ [entry.fileName]
    let wanted := Path.extensionOfName? entry.fileName.toList == some extension
    let type ← try some <$> (·.type) <$> entry.path.symlinkMetadata catch _ => pure none
    match type with
    | some .dir => survey (withDirectory files location) location extension
    | some _ => if wanted then learn files location else return files
    | none => return files) files

/-- Fetches from the disk until a command needs nothing more. -/
partial def gather (host : Host) (arguments : List String) (known : List Location)
    (surveyed : List (Location × List Char)) (files : FileSystem) : IO FileSystem := do
  let asked := ((host.lookupsOf files arguments).filter fun location => !known.contains location)
  let listed := (host.listingsOf files arguments).filter fun listing => !surveyed.contains listing
  if asked.isEmpty && listed.isEmpty then return files
  let files ← asked.eraseDups.foldlM learn files
  let files ← listed.foldlM (fun files (directory, extension) =>
    survey files directory extension) files
  gather host arguments (asked ++ known) (listed ++ surveyed) files

/-- A file system of which only the way to the working directory is known. -/
def startIn (pieces : List String) : FileSystem :=
  let here := pieces.filter fun piece => !piece.isEmpty
  let top := here.foldr (fun name inside => [(name, .directory inside)]) []
  { top, workingDirectory := here }

/-- Writes to the disk what changed. -/
def writeBack (before after : FileSystem) : IO Unit := do
  let here ← IO.currentDir
  for location in before.locations do
    if (after.node? location).isNone then
      IO.FS.removeFile (here / Location.path location)
  for location in after.locations do
    let path := here / Location.path location
    match after.node? location, before.node? location with
    | some (.directory _), none => IO.FS.createDirAll path
    | some (.file content), some (.file earlier) =>
      if content != earlier then IO.FS.writeBinFile path content
    | some (.file content), _ => IO.FS.writeBinFile path content
    | _, _ => pure ()

/-- Prints why a command stopped, and gives the program's exit code. -/
def report : Stop → IO UInt32
  | .failed failure => do
    IO.eprintln s!"\nError: {failure.message}"
    return 1
  | .malformed problem => do
    IO.eprintln s!"\nError: {problem.message}"
    return 1
  | .misused .helpWanted => do
    IO.print helpText
    return 0
  | .misused _ => do
    IO.eprint helpText
    return 2
  | .endless => do
    IO.eprintln "\nError: The menu contains itself without end."
    return 1

/-- Runs a command. -/
def run (arguments : List String) : IO UInt32 := do
  let start := startIn (FileSystem.piecesOf (toString (← IO.currentDir)))
  let plain ← host arguments
  let settings ← gather plain arguments [] [] start
  let named := settings.text plain.settingsPath
  let host ← host (arguments ++ named.toOption.toList)
  let files ← gather host arguments [] [] start
  let outcome := runOn host files arguments
  IO.print outcome.session.output
  IO.eprint outcome.session.warnings
  writeBack files outcome.session.files
  match outcome.stop with
  | none => return 0
  | some stop => report stop

end Menus.Program

/-- Runs the program. -/
def main (arguments : List String) : IO UInt32 := do
  match Menus.Demand.ofArguments arguments with
  | .help => do
    IO.print Menus.helpText
    return 0
  | .version => do
    IO.print Menus.versionText
    return 0
  | .overdone => do
    IO.eprint Menus.helpText
    return 2
  | .command arguments => Menus.Program.run arguments
