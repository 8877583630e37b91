import Menus.CommandLine.Failure
import Menus.Rendering.Style
import Menus.Settings
import Menus.Snapshot.Schema

/-!
# Sessions

A command runs in a session: it looks at its host, reads and writes files, and prints. It may stop
before its end; what was printed and written until then stays.
-/

namespace Menus

/-- What a command finds around it. -/
structure Host where
  environment : Environment
  /-- Where the user's configuration is kept. -/
  configuration : String
  /-- Where what can be made again is kept. -/
  caches : String
  /-- The output goes to a terminal that knows styles. -/
  styled : Bool
  scheme : CacheScheme := .standard

namespace Host

/-- The name of the application's own directories. -/
def applicationDirectory : String := "menuset"

/-- The variable that names the directory of the template cache. -/
def cacheVariable : String := "MENUSET_CACHE_DIR"

/-- A path seen from a directory. -/
def within (directory path : String) : String :=
  String.ofList (Path.inDirectory directory.toList path.toList)

/-- The directory that holds the settings. -/
def settingsDirectory (host : Host) : String :=
  within host.configuration applicationDirectory

/-- The file that holds the settings. -/
def settingsPath (host : Host) : String :=
  within host.settingsDirectory "settings.toml"

/-- The directory of the template cache. The environment comes first, then the settings; a variable
that is set to nothing counts as not set. -/
def cacheDirectory (host : Host) (settings : Settings) : String :=
  let fallback := (settings.cachePath host.environment).getD
    (within host.caches applicationDirectory)
  match host.environment.valueOf cacheVariable with
  | some directory => if directory.isEmpty then fallback else directory
  | none => fallback

end Host

namespace FileSystem

/-- The snapshot in the file at a path. -/
def snapshot (system : FileSystem) (path : String) : Except Stop Snapshot :=
  match system.text path with
  | .error cause => .error (.failed (.unreadableSnapshot path cause))
  | .ok content =>
    match Snapshot.ofToml? content with
    | some snapshot => .ok snapshot
    | none => .error (.malformed (.snapshot path))

/-- The settings in the file at a path. A missing file says nothing. -/
def settings (system : FileSystem) (path : String) : Except Stop Settings :=
  if system.isPresent path then
    match system.text path with
    | .error cause => .error (.failed (.unreadableSettings path cause))
    | .ok content =>
      match Settings.ofToml? content with
      | some settings => .ok settings
      | none => .error (.malformed (.settings path))
  else .ok {}

/-- Creates a directory unless something is there. -/
def ensureDirectory (system : FileSystem) (path : String) :
    FileSystem × Except DirectoryError Unit :=
  if system.isPresent path then (system, .ok ())
  else
    let (grown, created) := system.createDirectories path
    (grown, created.mapError fun cause => ⟨path, cause⟩)

end FileSystem

/-- The files a command works on, and what it has printed. -/
structure Session where
  files : FileSystem
  output : String := ""
  /-- What was printed apart from the output. -/
  warnings : String := ""

/-- A step of a command. -/
abbrev Step := ReaderT Host (ExceptT Stop (StateM Session))

namespace Step

/-- Prints a line. -/
def print (line : String) : Step Unit :=
  modify fun session => { session with output := session.output ++ line ++ "\n" }

/-- Prints a line in a style. -/
def printStyled (style : Style) (line : String) : Step Unit := do
  print (style.paint (← read).styled line)

/-- Prints a warning. -/
def warn (text : String) : Step Unit := do
  let mark := Style.boldYellow.paint (← read).styled "warning:"
  modify fun session => { session with warnings := session.warnings ++ mark ++ " " ++ text ++ "\n" }

/-- Stops because something failed. -/
def fail {α : Type} (failure : Failure) : Step α := throw (.failed failure)

/-- Goes on with a result, or stops. -/
def orStop {α : Type} : Except Stop α → Step α
  | .ok result => return result
  | .error stop => throw stop

/-- Works on the files. -/
def onFiles {α : Type} (work : FileSystem → FileSystem × α) : Step α := do
  let session ← get
  let (files, result) := work session.files
  set { session with files }
  return result

/-- Reads the arguments of a command. -/
def arguments (usage : Usage) (list : List String) : Step Arguments :=
  orStop ((Arguments.read usage list).mapError .misused)

/-- The settings of the user. The directory that holds them is created if it is missing. -/
def settings : Step Settings := do
  let host ← read
  match ← onFiles fun files => files.ensureDirectory host.settingsDirectory with
  | .error problem => fail (.unlocatedSettings problem)
  | .ok () => orStop ((← get).files.settings host.settingsPath)

/-- The directory of the template cache, created if it is missing. -/
def cacheDirectory (settings : Settings) : Step (Except DirectoryError String) := do
  let directory := (← read).cacheDirectory settings
  return (← onFiles fun files => files.ensureDirectory directory).map fun () => directory

/-- The directory to cache templates in. There is none when the settings say so, or when it cannot
be created. -/
def cacheInUse? (settings : Settings) : Step (Option String) := do
  if settings.cache then return (← cacheDirectory settings).toOption else return none

end Step

end Menus
