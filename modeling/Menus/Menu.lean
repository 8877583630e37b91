import Menus.Entry

/-!
# Building menus

Entries are added one after another, either as they are or under the status policy: a command
nobody knows is dropped, an optional command that cannot run is dropped, and so is an optional
submenu with nothing enabled in it. A separator is taken only after an entry that is no separator,
so a menu built under the policy neither starts with one nor has two in a row; the one that may be
left at the end is taken off when the menu is complete.
-/

namespace Menus.Menu

/-- A menu without entries. -/
def empty (name : String) : Menu := ⟨name, []⟩

/-- Appends entries as they are. -/
def append (menu : Menu) (entries : List (Entry Menu)) : Menu :=
  { menu with entries := menu.entries ++ entries }

@[simp] theorem entries_append (menu : Menu) (entries : List (Entry Menu)) :
    (menu.append entries).entries = menu.entries ++ entries := rfl

@[simp] theorem name_append (menu : Menu) (entries : List (Entry Menu)) :
    (menu.append entries).name = menu.name := rfl

@[simp] theorem append_nil (menu : Menu) : menu.append [] = menu := by
  cases menu
  simp [append]

/-- Appends one entry as it is. -/
def add (menu : Menu) (entry : Entry Menu) : Menu :=
  menu.append [entry]

@[simp] theorem entries_add (menu : Menu) (entry : Entry Menu) :
    (menu.add entry).entries = menu.entries ++ [entry] := rfl

/-- A command or submenu of the menu can be used. -/
def hasEnabled (menu : Menu) : Bool :=
  menu.entries.any fun entry => (entry.isCommand || entry.isSubmenu) && entry.status.isEnabled

/-- A command of the menu asks for the same thing as `request`. -/
def hasRequest (menu : Menu) (request : Request) : Bool :=
  menu.entries.any fun entry =>
    match entry.kind with
    | .command own => decide (own.Same request)
    | _ => false

/-- The last entry exists and is no separator. -/
def endsInItem (menu : Menu) : Bool :=
  match menu.entries.getLast? with
  | some last => !last.isSeparator
  | none => false

/-- Takes a separator off the end. -/
def dropTrailingSeparator (menu : Menu) : Menu :=
  match menu.entries.getLast? with
  | some last => if last.isSeparator then { menu with entries := menu.entries.dropLast } else menu
  | none => menu

end Menu

namespace Entry

/-- The entry as the status policy keeps it, or nothing when the policy drops it. A command takes
the status the application reports. A submenu with its menu attached is enabled when something in
that menu is. -/
def kept? (statusOf : Request → Status) (entry : Entry Menu) : Option (Entry Menu) :=
  match entry.kind with
  | .command request =>
    let status := statusOf request
    if status.isUnknown || (entry.optional && !status.isEnabled) then none
    else some { entry with status }
  | .submenu _ (some child) =>
    if entry.optional && !child.hasEnabled then none
    else some { entry with status := entry.status.withEnabled child.hasEnabled }
  | _ => some entry

end Entry

/-- Appends an entry under the status policy. -/
def Menu.addChecked (statusOf : Request → Status) (menu : Menu) (entry : Entry Menu) : Menu :=
  if entry.isSeparator then
    if menu.endsInItem then menu.add entry else menu
  else
    match entry.kept? statusOf with
    | some kept => menu.add kept
    | none => menu

end Menus
