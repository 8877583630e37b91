import Menus.Expansion.Generated
import Menus.Menu.Shortcuts
import Menus.Registry

/-!
# Expanding templates

An expansion turns a template into the menu to show. It has two parts. First every submenu gets its
menu attached: the registered template of its name, expanded in turn. A reference to a menu that is
being expanded already, or that stands too deep, or that nobody registered, gets an empty menu and a
warning. Then the entries are put together under the status policy, generated lists in the place of
the entries that stand for them.

The menus being expanded form a chain of names, and a name on the chain is not entered again. A menu
with the empty name leaves no trace on the chain, so the chain does not stop such a menu from being
entered from within itself. `Registry.expandWithin` therefore counts levels, and answers nothing
when they run out; `Registry.expand?` counts as many as any expansion that comes to an end can use,
so there an answer is missing only where the expansion would go on for ever.
-/

namespace Menus

/-- The most names on a chain. -/
def chainLimit : Nat := 32

/-- What an expansion reports besides its menu. -/
inductive Warning where
  /-- A submenu was not entered from the chain of menus being expanded. -/
  | notEntered (name : String) (chain : List String)
  /-- A submenu refers to no registered menu. -/
  | undefined (name : String)
  /-- An accelerator hint of an expanded menu does not serve its entry. -/
  | shortcut (issue : ShortcutIssue)
deriving DecidableEq, Repr

namespace Warning

/-- The warning in words. -/
def message : Warning → String
  | notEntered name chain =>
    let shown := " -> ".intercalate chain
    s!"Submenu '{name}' not expanded: cyclic or too deep ({shown} -> {name})."
  | undefined name => s!"Submenu '{name}' is not defined."
  | shortcut issue => issue.message

end Warning

/-- A menu and the warnings of its expansion, in the order in which they arose. -/
structure Expanded where
  menu : Menu
  warnings : List Warning

namespace Registry

/-- Puts an entry whose submenu is attached into a menu. -/
def place (registry : Registry) (context : Context) (menu : Menu) (entry : Entry Menu) : Menu :=
  match entry.kind with
  | .command request =>
    if registry.exclusions.hasRequest request then menu
    else menu.addChecked context.statusOf entry
  | .generated generator => menu.append (generator.entries context)
  | _ => menu.addChecked context.statusOf entry

/-- Puts a menu together from entries whose submenus are attached. -/
def assemble (registry : Registry) (context : Context) (name : String)
    (entries : List (Entry Menu)) : Menu :=
  (entries.foldl (registry.place context) (.empty name)).dropTrailingSeparator

/-- The chain inside a menu. The empty name does not join it. -/
def chainInside (chain : List String) (name : String) : List String :=
  if name.isEmpty then chain else chain ++ [name]

/-- A menu may not be entered from the chain. -/
def stops (chain : List String) (name : String) : Bool :=
  chain.contains name || decide (chainLimit ≤ chain.length)

/-- The entry with its menu attached, if it is a submenu; `openMenu` expands a registered
template. -/
def attach? (registry : Registry) (openMenu : Menu → Option Expanded) (chain : List String)
    (entry : Entry Menu) : Option (Entry Menu × List Warning) :=
  match entry.target? with
  | none => some (entry, [])
  | some name =>
    if stops chain name then some (entry.withChild (.empty name), [.notEntered name chain])
    else
      match registry.menu? name with
      | none => some (entry.withChild (.empty name), [.undefined name])
      | some template =>
        (openMenu template).map fun expanded => (entry.withChild expanded.menu, expanded.warnings)

/-- Expands a template inside a chain, entering menus at most `levels` deep. -/
def expandWithin (registry : Registry) (context : Context) :
    Nat → List String → Menu → Option Expanded
  | 0, _, _ => none
  | levels + 1, chain, source =>
    let inside := chainInside chain source.name
    (source.entries.mapM
        (registry.attach? (registry.expandWithin context levels inside) inside)).map fun attached =>
      let menu := registry.assemble context source.name (attached.map Prod.fst)
      ⟨menu, attached.flatMap Prod.snd ++ menu.shortcutIssues.map .shortcut⟩

/-- The levels that suffice for every expansion that comes to an end: the source, each menu on the
chain, and a menu of the empty name in front of each of those. -/
def levelLimit : Nat := 2 * chainLimit + 1

/-- Expands a template. There is no answer exactly where the expansion would not come to an end. -/
def expand? (registry : Registry) (context : Context) (source : Menu) : Option Expanded :=
  registry.expandWithin context levelLimit [] source

end Registry

end Menus
