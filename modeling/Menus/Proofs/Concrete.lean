import Menus.Proofs.Expanded

/-!
# What stands in an expanded menu

Every entry of an expanded menu, at any depth, is a command, a separator or a submenu that can be
opened: nothing is left of the entries that stand for a list, and no submenu refers to a menu that
is not attached. The status of a command is known, and an entry that a template marks as optional
is there only when it is enabled.
-/

namespace Menus

/-- An entry that can be shown as it is. -/
inductive Concrete (entry : Entry Menu) : Prop where
  | command {request : Request} (runs : entry.kind = .command request)
      (known : entry.status.availability ≠ .unknown)
      (usable : entry.optional = true → entry.status.availability = .enabled)
  | separator (divides : entry.kind = .separator)
  | submenu {menu : Menu} (opens : entry.kind = .submenu menu.name (some menu))
      (usable : entry.optional = true → entry.status.availability = .enabled)

/-- A shown entry is concrete. -/
theorem Shown.concrete {entry : Entry Menu} (shown : Shown entry) : Concrete entry := by
  cases shown with
  | command runs known required =>
    refine .command runs (by simpa [Status.isUnknown] using known) ?_
    simp [required]
  | opened opens _ _ required => exact .submenu opens (by simp [required])

/-- An entry of a menu put together is concrete. -/
theorem Assembled.concrete {context : Context} {property : Menu → Prop} {entry : Entry Menu}
    (assembled : Assembled context property entry) : Concrete entry := by
  cases assembled with
  | command runs known usable =>
    exact .command runs (by simpa [Status.isUnknown] using known)
      (by simpa [Status.isEnabled] using usable)
  | submenu opens _ available usable =>
    refine .submenu opens fun optional => ?_
    rw [available, Menu.availability, if_pos (usable optional)]
  | separator divides => exact .separator divides
  | generated member =>
    rcases (Generator.listed_entries _ context).shown_or_separator member with shown | divider
    · exact shown.concrete
    · exact .separator (by rw [divider, Entry.separator])

/-- Every entry of an expanded menu and of every menu below it is concrete. -/
theorem entries_are_concrete (registry : Registry) (context : Context) (source : Menu)
    (expanded : Expanded) (returned : registry.expand? context source = some expanded) :
    expanded.menu.Everywhere fun menu => ∀ entry ∈ menu.entries, Concrete entry := by
  refine registry.expanded_everywhere context ?_ ?_ returned
  · intro menu shown entry member
    exact (shown entry member).concrete
  · intro name entries attached entry member
    exact (registry.assembled_of_mem_assemble context attached member).concrete

/-- Commands that are unknown, barred, disabled and optional, a submenu that leads back, an optional
one that leads nowhere, and a list that has no document. -/
theorem entries_left_over_are_concrete :
    ∃ expanded,
      Registry.expand?
        { menus := [⟨"tools", [.command "Lost" (.ofMenu "lost" ""), .submenu "Back" "tools"]⟩]
          exclusions := Registry.exclusionMenu ["barred"] }
        { statusOf := fun request =>
            if request.action = "lost" then {}
            else if request.action = "stuck" then .disabled else .enabled }
        ⟨"", [.command "Run" (.ofMenu "run" ""), .command "Barred" (.ofMenu "barred" ""),
          .command "Stuck" (.ofMenu "stuck" ""),
          { Entry.command "Spare" (.ofMenu "stuck" "") with optional := true },
          .submenu "Tools" "tools", { Entry.submenu "Nowhere" "nowhere" with optional := true },
          { kind := .generated (.formats .viewing) }]⟩ = some expanded ∧
      expanded.menu.entries.map Entry.label = ["Run", "Stuck", "Tools", "No Document Open!"] ∧
      expanded.menu.Everywhere fun menu => ∀ entry ∈ menu.entries, Concrete entry := by
  refine ⟨?expanded, ?returned, ?labels, entries_are_concrete _ _ _ _ ?returned⟩
  case returned => rfl
  case labels => rfl

end Menus
