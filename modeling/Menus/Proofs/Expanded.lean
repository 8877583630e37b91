import Menus.Proofs.Generated
import Menus.Proofs.Submenus

/-!
# Statements about expanded trees

The menus of an expanded tree are of two kinds: those put together from a template, on top and below
submenus of templates, and those below submenus of generated lists, which hold shown entries only. A
property that both kinds have holds of every menu of every expanded tree.
-/

namespace Menus

/-- What holds of every menu of shown entries holds throughout the menu of a shown submenu.

Proof: by induction on the shown entry. The menu of a submenu holds shown entries again, and the
menus below it are those of its entries. -/
theorem Shown.everywhere {property : Menu → Prop}
    (ofShown : ∀ menu : Menu, (∀ entry ∈ menu.entries, Shown entry) → property menu)
    {entry : Entry Menu} (shown : Shown entry) {menu : Menu}
    (attached : entry.child? = some menu) : menu.Everywhere property := by
  induction shown generalizing menu with
  | command runs => simp [Entry.child?, runs] at attached
  | opened opens inside _ _ inductionHypothesis =>
    simp only [Entry.child?, opens, Option.some.injEq] at attached
    subst attached
    apply Menu.everywhere_of_children (ofShown _ inside)
    intro inner member child deeper
    exact inductionHypothesis inner member deeper

/-- What holds of every menu of shown entries, and of every menu put together from entries
throughout whose attached menus it holds, holds of every menu of an expanded tree.

Proof: by the induction over expansions. A menu attached to an entry of a menu put together was
attached before, or it belongs to an entry of a generated list; that entry is shown, since a
separator has no menu. -/
theorem Registry.expanded_everywhere (registry : Registry) (context : Context)
    {property : Menu → Prop}
    (ofShown : ∀ menu : Menu, (∀ entry ∈ menu.entries, Shown entry) → property menu)
    (assembled : ∀ name entries,
      (∀ entry ∈ entries, Entry.Opens (Menu.Everywhere property) entry) →
        property (registry.assemble context name entries))
    {levels : Nat} {chain : List String} {source : Menu} {expanded : Expanded}
    (returned : registry.expandWithin context levels chain source = some expanded) :
    expanded.menu.Everywhere property := by
  refine (registry.expanded_of_assembled context ?_ _ _ _ _ returned).2
  intro name entries attached
  apply Menu.everywhere_of_children (assembled name entries attached)
  intro entry member child opened
  cases registry.assembled_of_mem_assemble context attached member with
  | command runs => simp [Entry.child?, runs] at opened
  | submenu opens holds =>
    simp only [Entry.child?, opens, Option.some.injEq] at opened
    exact opened ▸ holds
  | separator divides => simp [Entry.child?, divides] at opened
  | generated member =>
    rcases (Generator.listed_entries _ context).shown_or_separator member with shown | divider
    · exact shown.everywhere ofShown opened
    · simp [divider, Entry.separator, Entry.child?] at opened

end Menus
