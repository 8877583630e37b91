import Menus.Proofs.Expanded

/-!
# Which submenus are enabled

A submenu of an expanded menu is enabled when a command somewhere in the tree below it is enabled,
and disabled when there is none. The rules that set its status look at one level only: a submenu of
a template is enabled when a command or submenu of its menu is, a list of floats when it is not
empty, and a part of the contents always. That these agree with the tree below is proved from the
bottom up: once the submenus of a menu tell the truth, the menu has something enabled exactly when
its tree can be run.
-/

namespace Menus

/-- If the entry is a submenu, it is enabled when its tree can be run and disabled otherwise. -/
def Entry.Reflects (entry : Entry Menu) : Prop :=
  entry.isSubmenu = true → ∃ menu, entry.child? = some menu ∧
    (entry.status.availability = .enabled ↔ menu.Runnable) ∧
    (entry.status.availability = .disabled ↔ ¬menu.Runnable)

/-- A menu whose submenus reflect their trees has something enabled exactly when it can be run. -/
theorem Menu.hasEnabled_iff_runnable {menu : Menu}
    (reflect : ∀ entry ∈ menu.entries, entry.Reflects) :
    menu.hasEnabled = true ↔ menu.Runnable := by
  rw [hasEnabled, List.any_eq_true]
  constructor
  · rintro ⟨entry, member, usable⟩
    simp only [Bool.and_eq_true, Bool.or_eq_true] at usable
    obtain ⟨command | opens, enabled⟩ := usable
    · exact runnable_of_command member command enabled
    · obtain ⟨child, attached, whenRunnable, _⟩ := reflect entry member opens
      have available : entry.status.availability = .enabled := by
        simpa [Status.isEnabled] using enabled
      exact runnable_of_child member attached (whenRunnable.mp available)
  · intro runnable
    rcases runnable.cases with ⟨entry, member, command, enabled⟩ |
      ⟨entry, member, child, attached, below⟩
    · exact ⟨entry, member, by simp [command, enabled]⟩
    · have opens : entry.isSubmenu = true := by
        cases kind : entry.kind <;> simp_all [Entry.child?, Entry.isSubmenu, Entry.target?]
      obtain ⟨reflected, same, whenRunnable, _⟩ := reflect entry member opens
      rw [attached] at same
      cases same
      have available := whenRunnable.mpr below
      exact ⟨entry, member, by simp [opens, Status.isEnabled, available]⟩

/-- A submenu as available as its menu reflects its tree, if the submenus of that menu do. -/
theorem Entry.reflects_of_availability {entry : Entry Menu} {menu : Menu}
    (opens : entry.kind = .submenu menu.name (some menu))
    (available : entry.status.availability = menu.availability)
    (inside : ∀ inner ∈ menu.entries, inner.Reflects) : entry.Reflects := by
  intro _
  have usable := Menu.hasEnabled_iff_runnable inside
  refine ⟨menu, by simp [child?, opens], ?_⟩
  rw [available, Menu.availability]
  by_cases runnable : menu.Runnable
  · simp [usable.mpr runnable, runnable]
  · have unusable : menu.hasEnabled = false := by
      simpa using fun enabled => runnable (usable.mp enabled)
    simp [unusable, runnable]

/-- An entry that is no submenu reflects its tree, since it has none. -/
theorem Entry.reflects_of_not_submenu {entry : Entry Menu} (leaf : entry.isSubmenu = false) :
    entry.Reflects := by
  intro opens
  simp [leaf] at opens

/-- A shown entry reflects its tree. -/
theorem Shown.reflects {entry : Entry Menu} (shown : Shown entry) : entry.Reflects := by
  induction shown with
  | command runs =>
    exact Entry.reflects_of_not_submenu (by simp [Entry.isSubmenu, Entry.target?, runs])
  | opened opens _ available _ inductionHypothesis =>
    exact Entry.reflects_of_availability opens available inductionHypothesis

/-- An entry of a menu put together reflects its tree, if the entries of attached menus do. -/
theorem Assembled.reflects {context : Context} {entry : Entry Menu}
    (assembled : Assembled context
      (Menu.Everywhere fun menu => ∀ inner ∈ menu.entries, inner.Reflects) entry) :
    entry.Reflects := by
  cases assembled with
  | command runs =>
    exact Entry.reflects_of_not_submenu (by simp [Entry.isSubmenu, Entry.target?, runs])
  | submenu opens holds available =>
    exact Entry.reflects_of_availability opens available holds.top
  | separator divides =>
    exact Entry.reflects_of_not_submenu (by simp [Entry.isSubmenu, Entry.target?, divides])
  | generated member =>
    rcases (Generator.listed_entries _ context).shown_or_separator member with shown | divider
    · exact shown.reflects
    · exact Entry.reflects_of_not_submenu (by rw [divider]; rfl)

/-- Every submenu of an expanded menu, at any depth, is enabled when a command in the tree below it
is enabled, and disabled otherwise. -/
theorem submenus_reflect_trees (registry : Registry) (context : Context) (source : Menu)
    (expanded : Expanded) (returned : registry.expand? context source = some expanded) :
    expanded.menu.Everywhere fun menu => ∀ entry ∈ menu.entries, entry.Reflects := by
  refine registry.expanded_everywhere context ?_ ?_ returned
  · intro menu shown entry member
    exact (shown entry member).reflects
  · intro name entries attached entry member
    exact (registry.assembled_of_mem_assemble context attached member).reflects

/-- A command two menus down, menus that lead back or nowhere, and lists of floats with and without
content. -/
theorem submenus_reflect_nested_trees :
    ∃ expanded,
      Registry.expand?
        { menus :=
            [⟨"outer", [.submenu "Inner" "inner", .command "Stuck" (.ofMenu "stuck" "")]⟩,
              ⟨"inner", [.command "Run" (.ofMenu "run" ""), .submenu "Back" "outer"]⟩,
              ⟨"idle", [.command "Stuck" (.ofMenu "stuck" ""), .submenu "Nowhere" "nowhere"]⟩] }
        { statusOf := fun request => if request.action = "stuck" then .disabled else .enabled
          document := some
            { contents := [⟨"figure", [⟨0, "Plan", .ofMenu "goto" "1"⟩]⟩, ⟨"table", []⟩] } }
        ⟨"", [.submenu "Outer" "outer", .submenu "Idle" "idle", .submenu "Nowhere" "nowhere",
          { kind := .generated .contents }]⟩ = some expanded ∧
      (expanded.menu.entries.map fun entry => (entry.label, entry.status.availability)) =
        [("Outer", .enabled), ("Idle", .disabled), ("Nowhere", .disabled), ("figure", .enabled),
          ("table", .disabled), ("No Table of contents", .disabled)] ∧
      expanded.menu.Everywhere fun menu => ∀ entry ∈ menu.entries, entry.Reflects := by
  refine ⟨?expanded, ?returned, ?statuses, submenus_reflect_trees _ _ _ _ ?returned⟩
  case returned => rfl
  case statuses => rfl

end Menus
