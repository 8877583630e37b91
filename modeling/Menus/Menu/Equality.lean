import Menus.Entry

/-!
# Equality of menus

Two menus are equal when their names, their entries and all menus attached below are. Menus nest in
their own entries, so this is decided by recursion over menu, list of entries, entry, kind and
attached menu at once.
-/

namespace Menus

mutual

/-- Decides whether two menus are equal. -/
def Menu.decideEq : (menu other : Menu) → Decidable (menu = other)
  | ⟨name, entries⟩, ⟨otherName, otherEntries⟩ =>
    have := Menu.decideEqEntries entries otherEntries
    decidable_of_iff (name = otherName ∧ entries = otherEntries) (by simp)

/-- Decides whether two lists of entries are equal. -/
def Menu.decideEqEntries : (entries others : List (Entry Menu)) → Decidable (entries = others)
  | [], [] => isTrue rfl
  | [], _ :: _ => isFalse nofun
  | _ :: _, [] => isFalse nofun
  | entry :: rest, other :: others =>
    have := Menu.decideEqEntry entry other
    have := Menu.decideEqEntries rest others
    decidable_of_iff (entry = other ∧ rest = others) (by simp)

/-- Decides whether two entries are equal. -/
def Menu.decideEqEntry : (entry other : Entry Menu) → Decidable (entry = other)
  | ⟨kind, label, optional, status⟩, ⟨otherKind, otherLabel, otherOptional, otherStatus⟩ =>
    have := Menu.decideEqKind kind otherKind
    decidable_of_iff
      (kind = otherKind ∧ label = otherLabel ∧ optional = otherOptional ∧ status = otherStatus)
      (by simp)

/-- Decides whether two entries stand for the same. -/
def Menu.decideEqKind : (kind other : Kind Menu) → Decidable (kind = other)
  | .command request, .command other => decidable_of_iff (request = other) (by simp)
  | .submenu name child, .submenu otherName otherChild =>
    have := Menu.decideEqChild child otherChild
    decidable_of_iff (name = otherName ∧ child = otherChild) (by simp)
  | .separator, .separator => isTrue rfl
  | .generated generator, .generated other => decidable_of_iff (generator = other) (by simp)
  | .command _, .submenu _ _ | .command _, .separator | .command _, .generated _ => isFalse nofun
  | .submenu _ _, .command _ | .submenu _ _, .separator | .submenu _ _, .generated _ =>
    isFalse nofun
  | .separator, .command _ | .separator, .submenu _ _ | .separator, .generated _ => isFalse nofun
  | .generated _, .command _ | .generated _, .submenu _ _ | .generated _, .separator =>
    isFalse nofun

/-- Decides whether two attached menus are equal. -/
def Menu.decideEqChild : (child other : Option Menu) → Decidable (child = other)
  | none, none => isTrue rfl
  | none, some _ => isFalse nofun
  | some _, none => isFalse nofun
  | some menu, some other =>
    have := Menu.decideEq menu other
    decidable_of_iff (menu = other) (by simp)

end

instance : DecidableEq Menu := Menu.decideEq

instance : DecidableEq (Entry Menu) := Menu.decideEqEntry

end Menus
