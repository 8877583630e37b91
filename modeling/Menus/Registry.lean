import Menus.Definition.Block
import Menus.Menu
import Menus.Menu.Equality

/-!
# The registry of templates

All templates of an application: the menubar, the named menus in the order in which their names
first occurred, and the exclusion menu. Menus refer to each other by name only, so a menu can be used
before it is declared, or without ever being declared.

The commands of the exclusion menu are left out of expanded menus where a template names them. What a
generated list adds is not compared with it.

Reading a definition and merging two registries extend menus; adding a menu replaces one.
-/

namespace Menus

/-- The templates of an application. -/
structure Registry where
  menubar : Menu := .empty ""
  menus : List Menu := []
  exclusions : Menu := .empty ""
deriving DecidableEq

instance : Inhabited Registry := ⟨{}⟩

/-- Appends entries to the first menu called `name`; a menu nobody has named yet joins at the
end. -/
def extendMenus (name : String) (entries : List (Entry Menu)) : List Menu → List Menu
  | [] => [⟨name, entries⟩]
  | menu :: rest =>
    if menu.name = name then menu.append entries :: rest
    else menu :: extendMenus name entries rest

/-- Puts a menu in the place of the first one of its name, or at the end. -/
def replaceMenu (menu : Menu) : List Menu → List Menu
  | [] => [menu]
  | first :: rest =>
    if first.name = menu.name then menu :: rest else first :: replaceMenu menu rest

namespace Registry

/-- The menu called `name`. -/
def menu? (registry : Registry) (name : String) : Option Menu :=
  registry.menus.find? fun menu => menu.name == name

/-- A menu called `name` is registered. -/
def hasMenu (registry : Registry) (name : String) : Bool :=
  registry.menus.any fun menu => menu.name == name

/-- The menubar and the named menus: everything that can be expanded. -/
def sources (registry : Registry) : List Menu :=
  registry.menubar :: registry.menus

/-- The number of entries of all templates. The exclusion menu is none of them. -/
def entryCount (registry : Registry) : Nat :=
  registry.sources.foldr (fun menu count => menu.entries.length + count) 0

/-- Gives entries to one menu. -/
def contribute (registry : Registry) (contribution : Contribution) : Registry :=
  match contribution.menu with
  | none => { registry with menubar := registry.menubar.append contribution.entries }
  | some name => { registry with menus := extendMenus name contribution.entries registry.menus }

/-- Gives entries to menus, one contribution after another. -/
def contributeAll (registry : Registry) (contributions : List Contribution) : Registry :=
  contributions.foldl contribute registry

/-- Registers a menu. A menu of the same name is replaced where it stands. -/
def add (registry : Registry) (menu : Menu) : Registry :=
  { registry with menus := replaceMenu menu registry.menus }

/-- Adds every menu of another registry, extending the menus both have. The other registry's
exclusions are ignored. -/
def merge (registry other : Registry) : Registry where
  menubar := registry.menubar.append other.menubar.entries
  menus := other.menus.foldl (fun menus menu => extendMenus menu.name menu.entries menus)
    registry.menus
  exclusions := registry.exclusions

/-- Sets the exclusion menu. -/
def withExclusions (registry : Registry) (exclusions : Menu) : Registry :=
  { registry with exclusions }

/-- The exclusion menu of some command strings, which are split as those of a definition are. -/
def exclusionMenu (commands : List String) : Menu where
  name := ""
  entries := commands.map fun command => Entry.command command (.ofCommand command)

/-- Reads the body of a `menuset` block at the cursor, up to its `end`. -/
def read (registry : Registry) (cursor : Cursor) : Registry × Cursor :=
  let block := Passage.readMenuset cursor.file cursor.pending
  (registry.contributeAll (Statement.contributions block.statements),
    { cursor with
      pending := block.rest
      diagnostics := cursor.diagnostics ++ Statement.problems block.statements })

/-- Reads a definition text that stands alone. Nothing in it prevents a registry from being
built. -/
def parse (file text : String) : Registry × List Diagnostic :=
  let tokens := Token.ofText text
  let statements := Statement.readDefinition file tokens
  (({} : Registry).contributeAll (Statement.contributions statements),
    Diagnostic.ofTokens file tokens ++ Statement.problems statements)

/-- A menu is registered under a name exactly when looking the name up finds one. -/
theorem hasMenu_eq_isSome (registry : Registry) (name : String) :
    registry.hasMenu name = (registry.menu? name).isSome := by
  rw [hasMenu, menu?, Bool.eq_iff_iff, List.find?_isSome, List.any_eq_true]

end Registry

end Menus
