import Menus.CommandLine.Commands

/-!
# The command line

The first argument names a command, and the others are the command's own. Only a first argument that
asks for help or for the version is an option of the program itself. Without any argument the
menubar is shown.
-/

namespace Menus

/-- What the program is asked to do. -/
inductive Demand where
  /-- To run a command. -/
  | command (arguments : List String)
  /-- To print its help. -/
  | help
  /-- To print its version. -/
  | version
  /-- Help or the version, with a value that neither takes. -/
  | overdone
deriving DecidableEq, Repr

namespace Demand

/-- What letters behind one dash ask for. With any other letter among them they ask for nothing. -/
def ofLetters? (letters : List Char) : Option Demand :=
  if letters.all fun letter => letter == 'h' || letter == 'V' then
    letters.head?.map fun letter => if letter = 'h' then help else version
  else none

/-- What an argument of the program itself asks for. -/
def ofOption? (argument : String) : Option Demand :=
  match argument.toList with
  | '-' :: '-' :: name =>
    let word := String.ofList (name.takeWhile (· ≠ '='))
    if word = "help" ∨ word = "version" then
      if name.contains '=' then some overdone
      else some (if word = "help" then help else version)
    else none
  | '-' :: letters => ofLetters? letters
  | _ => none

/-- What all arguments ask for. Two dashes alone in front make what follows a command, whatever it
is. -/
def ofArguments : List String → Demand
  | [] => command []
  | first :: rest =>
    if first = "--" then command rest else (ofOption? first).getD (command (first :: rest))

end Demand

/-- What the program is for and how it is used. -/
def helpText : String :=
  s!"menuset {version}\n" ++
  "Declarative menu definitions with on-demand, context-aware expansion.\n\n" ++
  "USAGE:\n" ++
  "  menuset show [MENU] [--file UI] [--context TOML] [--json] [--no-cache]\n" ++
  "  menuset check [--file UI]\n" ++
  "  menuset list [--file UI]\n" ++
  "  menuset cache clear|path\n\n" ++
  "Set RUST_LOG=debug to see parser and expansion diagnostics.\n"

/-- The program and its version. -/
def versionText : String := s!"menuset {version}\n"

/-- Runs the command that the first argument names. -/
def dispatch : List String → Step Unit
  | [] => Command.expand.run []
  | name :: arguments =>
    match Command.ofName? name with
    | some command => command.run arguments
    | none => Step.fail (.unknownCommand name (Command.all.map Command.name))

/-- What came of a command: what it left, and why it stopped if it did. -/
structure Outcome where
  session : Session
  stop : Option Stop

/-- Runs a command on files. -/
def runOn (host : Host) (files : FileSystem) (arguments : List String) : Outcome :=
  match ((dispatch arguments).run host).run.run { files } with
  | (.ok (), session) => ⟨session, none⟩
  | (.error stop, session) => ⟨session, some stop⟩

end Menus
