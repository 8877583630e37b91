import Menus.CommandLine.Session
import Menus.Expansion
import Menus.Registry.Check
import Menus.Rendering.Tree
import Menus.Rendering.View

/-!
# Commands

What the program can be asked to do: expand a menu and show it, check definitions, list the menus
they declare, and look after the template cache.
-/

namespace Menus

/-- The commands of the program. -/
inductive Command where
  /-- Expands a menu against a context and prints it. -/
  | expand
  /-- Reports what is wrong with definitions. -/
  | check
  /-- Prints the declared menus. -/
  | list
  /-- Clears the template cache or says where it is. -/
  | cache
deriving DecidableEq, Repr

namespace Command

/-- All commands, in the order in which they are offered. -/
def all : List Command := [expand, check, list, cache]

/-- The names of a command. The first one is offered to users. -/
def names : Command → List String
  | expand => ["show", "expand"]
  | check => ["check"]
  | list => ["list", "ls"]
  | cache => ["cache"]

/-- The name that is offered. -/
def name (command : Command) : String := command.names.headD ""

/-- The command called so. -/
def ofName? (name : String) : Option Command :=
  all.find? fun command => command.names.contains name

/-- The option that names the definitions. -/
def fileOption : CommandOption := ⟨"file", some 'f', .text⟩

/-- The option that has the definitions read again. -/
def bypassOption : CommandOption := ⟨"no-cache", none, .nothing⟩

/-- What each command takes. The cache command looks at its first argument only. -/
def usage : Command → Usage
  | expand =>
    { options := [fileOption, ⟨"context", some 'c', .text⟩, ⟨"json", none, .nothing⟩, bypassOption,
        ⟨"bindings", some 'b', .nothing⟩, ⟨"commands", none, .nothing⟩,
        ⟨"depth", some 'd', .number⟩]
      positionals := 1 }
  | check => { options := [fileOption] }
  | list => { options := [fileOption, bypassOption] }
  | cache => {}

/-- Loads the definitions that the arguments name, or else the settings, and prints what is wrong
with them. -/
def load (file : Option String) (bypass : Bool) : Step Loaded := do
  let host ← read
  let settings ← Step.settings
  let named := file.map (Path.ofUser host.environment.valueOf host.environment.home)
  match named <|> settings.definitionPath host.environment with
  | none => Step.fail .noDefinition
  | some path =>
    let directory ← Step.cacheInUse? settings
    match ← Step.onFiles fun files => host.scheme.load files directory bypass path with
    | .error problem => Step.fail (.unloadable path problem)
    | .ok loaded =>
      loaded.diagnostics.forM fun diagnostic => Step.warn diagnostic.message
      return loaded

/-- The menu to expand, and the heading above it. Without a name it is the menubar. -/
def select (registry : Registry) : Option String → Step (Menu × String)
  | none => return (registry.menubar, "Menubar")
  | some name =>
    match registry.menu? name with
    | some menu => return (menu, s!"Menu '{name}'")
    | none => Step.fail (.unknownMenu name)

/-- Prints an expanded menu as a tree below a heading. -/
def printTree (bindingsOf : Request → List String) (options : DisplayOptions) (heading : String)
    (menu : Menu) : Step Unit := do
  let title := Style.bold.paint options.styled heading
  Step.print s!"\n{title}"
  if menu.entries.isEmpty then
    let empty := Style.dimmed.paint options.styled "(empty)"
    Step.print s!"  {empty}"
  else
    let tree := menu.render bindingsOf options
    modify fun session => { session with output := session.output ++ tree }

/-- Expands a menu against a context and prints it. -/
def runExpand (list : List String) : Step Unit := do
  let host ← read
  let arguments ← Step.arguments expand.usage list
  let snapshot ←
    match arguments.value? "context" with
    | some path => Step.orStop ((← get).files.snapshot path)
    | none => pure {}
  let loaded ← load (arguments.value? "file") (arguments.has "no-cache")
  let registry := loaded.registry.withExclusions (Registry.exclusionMenu snapshot.exclude)
  let (source, heading) ← select registry arguments.positionals.head?
  match registry.expand? (snapshot.toContext host.environment.home) source with
  | none => throw .endless
  | some expanded =>
    let bindingsOf := snapshot.bindings.of
    if arguments.has "json" then
      Step.print (Json.pretty 0 (expanded.menu.toJson bindingsOf))
    else
      let options := {
        bindings := arguments.has "bindings"
        commands := arguments.has "commands"
        depth := (arguments.value? "depth").bind wordOf?
        styled := host.styled }
      printTree bindingsOf options heading expanded.menu

/-- Reads definitions anew and prints what is wrong with them. What is wrong with their text has
been printed as warnings by then. -/
def runCheck (list : List String) : Step Unit := do
  let styled := (← read).styled
  let arguments ← Step.arguments check.usage list
  let loaded ← load (arguments.value? "file") true
  let first := (loaded.sources.head?.map fun source => Location.path source.location).getD ""
  let title := Style.bold.paint styled s!"Checking menu definitions in {first}"
  Step.print s!"\n{title}"
  let issues := loaded.registry.check
  issues.forM fun issue => do
    let mark := Style.yellow.paint styled "-"
    Step.print s!"  {mark} {issue.message}"
  let count := loaded.diagnostics.length + issues.length
  if count = 0 then
    let answer := Style.green.paint styled "No problems found."
    Step.print s!"  {answer}"
  else Step.fail (.problemsFound count)

/-- The width that the names of menus are filled up to. -/
def nameWidth : Nat := 24

/-- Prints the declared menus with the numbers of their entries, the menubar first. -/
def runList (list : List String) : Step Unit := do
  let styled := (← read).styled
  let arguments ← Step.arguments Command.list.usage list
  let loaded ← load (arguments.value? "file") (arguments.has "no-cache")
  let title := Style.bold.paint styled "Defined menus:"
  Step.print s!"\n{title}"
  let menus := ("(menubar)", loaded.registry.menubar) ::
    loaded.registry.menus.map fun menu => (menu.name, menu)
  menus.forM fun (name, menu) => do
    let shown := Style.cyan.paintPadded styled nameWidth name
    let count := Style.dimmed.paint styled (toString menu.entries.length)
    Step.print s!"  {shown} {count}"

/-- Removes all records of the template cache. -/
def runClear : Step Unit := do
  match ← Step.cacheDirectory (← Step.settings) with
  | .error problem => Step.fail (.unlocatedCache problem)
  | .ok directory =>
    match ← Step.onFiles fun files => files.clearCache directory with
    | .error problem => Step.fail (.unclearedCache problem)
    | .ok count => Step.printStyled .green s!"Removed {count} cached template(s) from {directory}."

/-- Prints the directory of the template cache, or a dash if there is none. -/
def runWhere : Step Unit := do
  match ← Step.cacheInUse? (← Step.settings) with
  | some directory => Step.print directory
  | none => Step.printStyled .dimmed "-"

/-- Looks after the template cache. -/
def runCache (list : List String) : Step Unit :=
  match list.head? with
  | some "clear" => runClear
  | some "path" => runWhere
  | _ => Step.fail .cacheUsage

/-- Runs a command with its arguments. -/
def run : Command → List String → Step Unit
  | expand => runExpand
  | check => runCheck
  | list => runList
  | cache => runCache

end Command

end Menus
