import Menus.Cache
import Menus.CommandLine.Arguments

/-!
# Failures

Why a command stops before its end. A failure is reported as a chain, from what failed to what lies
behind it; a link of the chain may repeat the next one in its own words.
-/

namespace Menus

/-- A directory that is needed could not be created. -/
structure DirectoryError where
  path : String
  cause : AccessError
deriving DecidableEq, Repr

/-- What happened. -/
def DirectoryError.message (problem : DirectoryError) : String :=
  s!"Could not create directory at '{problem.path}': {problem.cause.message}"

/-- Why a command failed. -/
inductive Failure where
  | unknownCommand (name : String) (known : List String)
  | unknownMenu (name : String)
  /-- Neither the arguments nor the settings name a definition. -/
  | noDefinition
  | unloadable (path : String) (problem : LoadError)
  /-- The definitions are not as they should be. -/
  | problemsFound (count : Nat)
  | unreadableSnapshot (path : String) (cause : AccessError)
  | unreadableSettings (path : String) (cause : AccessError)
  /-- There is no directory to keep settings in. -/
  | unlocatedSettings (problem : DirectoryError)
  /-- There is no directory to cache in. -/
  | unlocatedCache (problem : DirectoryError)
  | unclearedCache (problem : ClearError)
  /-- The cache command was not told what to do. -/
  | cacheUsage
deriving DecidableEq, Repr

namespace Failure

/-- What failed, and then what lies behind it, in words. -/
def chain : Failure → List String
  | unknownCommand name known =>
    let available := ", ".intercalate known
    [s!"Unknown command '{name}'. Available commands: {available}."]
  | unknownMenu name => [s!"Menu '{name}' is not defined."]
  | noDefinition => ["No UI definition file given and none configured in settings."]
  | unloadable path problem =>
    [s!"Failed to load '{path}'", problem.message] ++ problem.cause?.toList
  | problemsFound count => [s!"{count} problem(s) found."]
  | unreadableSnapshot path cause =>
    [s!"Could not read context snapshot '{path}': {cause.message}", cause.message]
  | unreadableSettings path cause =>
    [s!"Could not read settings at '{path}': {cause.message}", cause.message]
  | unlocatedSettings problem =>
    [s!"Could not locate the settings file: {problem.message}", problem.message,
      problem.cause.message]
  | unlocatedCache problem => [problem.message, problem.cause.message]
  | unclearedCache problem => [problem.message, problem.cause]
  | cacheUsage => ["Usage: menuset cache <clear|path>"]

/-- The whole chain in words. -/
def message (failure : Failure) : String := ": ".intercalate failure.chain

end Failure

/-- A file that does not describe what it should. -/
inductive Malformed where
  | settings (path : String)
  | snapshot (path : String)
deriving DecidableEq, Repr

/-- The problem in words. -/
def Malformed.message : Malformed → String
  | settings path => s!"Invalid settings in '{path}'"
  | snapshot path => s!"Invalid context snapshot '{path}'"

/-- Why a command stopped before its end. -/
inductive Stop where
  | failed (failure : Failure)
  | malformed (problem : Malformed)
  /-- The arguments are wrong, or ask for something else. -/
  | misused (misuse : Misuse)
  /-- The expansion of a menu has no end. -/
  | endless
deriving DecidableEq, Repr

end Menus
