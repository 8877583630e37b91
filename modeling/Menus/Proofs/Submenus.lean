import Menus.Menu

/-!
# Menus at every depth

An expanded menu is a tree: submenus have menus attached, and those hold submenus in turn. A menu
lies within another when attached menus lead from one to the other, in any number of steps, so a
statement about an expanded tree is a statement about every menu within it. It is proved of the menu
on top and of the trees attached to its entries.

A menu can be run when a command somewhere in its tree is enabled. This looks at commands alone, not
at the status of the submenus that lead to them.
-/

namespace Menus.Menu

/-- Attached menus lead from the outer menu to the inner one. -/
inductive Within : Menu → Menu → Prop where
  | self (menu : Menu) : Within menu menu
  | through {inner child outer : Menu} {entry : Entry Menu} (member : entry ∈ outer.entries)
      (attached : entry.child? = some child) (deeper : Within inner child) : Within inner outer

/-- The property holds of every menu of a tree. -/
def Everywhere (property : Menu → Prop) (menu : Menu) : Prop :=
  ∀ inner : Menu, inner.Within menu → property inner

/-- A property of every menu of a tree holds of the menu on top. -/
theorem Everywhere.top {property : Menu → Prop} {menu : Menu}
    (everywhere : menu.Everywhere property) : property menu :=
  everywhere menu (.self menu)

/-- What holds on top and throughout the attached trees holds everywhere. -/
theorem everywhere_of_children {property : Menu → Prop} {menu : Menu} (top : property menu)
    (children : ∀ entry ∈ menu.entries, ∀ child, entry.child? = some child →
      child.Everywhere property) : menu.Everywhere property := by
  intro inner within
  cases within with
  | self => exact top
  | through member attached deeper => exact children _ member _ attached inner deeper

/-- A command somewhere in the tree is enabled. -/
def Runnable (menu : Menu) : Prop :=
  ∃ inner : Menu, inner.Within menu ∧
    ∃ entry ∈ inner.entries, entry.isCommand = true ∧ entry.status.isEnabled = true

/-- An enabled command of the menu on top makes it runnable. -/
theorem runnable_of_command {menu : Menu} {entry : Entry Menu} (member : entry ∈ menu.entries)
    (command : entry.isCommand = true) (enabled : entry.status.isEnabled = true) :
    menu.Runnable :=
  ⟨menu, .self menu, entry, member, command, enabled⟩

/-- An attached menu that can be run makes the menu runnable. -/
theorem runnable_of_child {menu child : Menu} {entry : Entry Menu}
    (member : entry ∈ menu.entries) (attached : entry.child? = some child)
    (runnable : child.Runnable) : menu.Runnable := by
  obtain ⟨inner, deeper, command⟩ := runnable
  exact ⟨inner, .through member attached deeper, command⟩

/-- A menu that can be run has an enabled command itself or an attached menu that can be run. -/
theorem Runnable.cases {menu : Menu} (runnable : menu.Runnable) :
    (∃ entry ∈ menu.entries, entry.isCommand = true ∧ entry.status.isEnabled = true) ∨
      ∃ entry ∈ menu.entries, ∃ child, entry.child? = some child ∧ child.Runnable := by
  obtain ⟨inner, within, command⟩ := runnable
  cases within with
  | self => exact .inl command
  | through member attached deeper =>
    exact .inr ⟨_, member, _, attached, inner, deeper, command⟩

end Menus.Menu
