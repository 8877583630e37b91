import Menus.Proofs.Merging
import Menus.Proofs.Updates

/-!
# Combining registries

Registries are combined pairwise, and it does not matter in which pairs: what the third one gives to
a menu comes last either way, behind what the second one gives to it, and a menu that is new takes
its place when its name first occurs. The registry in the middle has to keep its menus under
different names. If it had two menus of one name, the third would extend the first of them there, but
come behind both once they are one menu.

Combining moves entries and makes none: those of the combined registry are the entries of the two,
each as often as it was there.
-/

namespace Menus.Registry

/-- The entries of all templates, menu by menu. -/
def allEntries (registry : Registry) : List (Entry Menu) :=
  registry.sources.flatMap Menu.entries

/-- The number of entries counts all of them. -/
theorem entryCount_eq_length (registry : Registry) :
    registry.entryCount = registry.allEntries.length := by
  have counted (menus : List Menu) :
      menus.foldr (fun menu count => menu.entries.length + count) 0 =
        (menus.flatMap Menu.entries).length := by
    induction menus with
    | nil => rfl
    | cons menu rest inductionHypothesis =>
      rw [List.foldr_cons, List.flatMap_cons, List.length_append, inductionHypothesis]
  exact counted registry.sources

/-- Extending a menu puts the entries somewhere among those of the menus. -/
theorem perm_extendMenus (name : String) (entries : List (Entry Menu)) (menus : List Menu) :
    ((extendMenus name entries menus).flatMap Menu.entries).Perm
      (menus.flatMap Menu.entries ++ entries) := by
  induction menus with
  | nil => simp [extendMenus]
  | cons menu rest inductionHypothesis =>
    rw [extendMenus]
    split
    · rw [List.flatMap_cons, List.flatMap_cons, Menu.entries_append, List.append_assoc,
        List.append_assoc]
      exact List.perm_append_comm.append_left menu.entries
    · rw [List.flatMap_cons, List.flatMap_cons, List.append_assoc]
      exact inductionHypothesis.append_left menu.entries

/-- A contribution adds its entries and keeps all others. -/
theorem perm_contribute (registry : Registry) (contribution : Contribution) :
    (registry.contribute contribution).allEntries.Perm
      (registry.allEntries ++ contribution.entries) := by
  rw [allEntries, allEntries, sources, sources, List.flatMap_cons, List.flatMap_cons, contribute,
    List.append_assoc]
  split
  · rw [Menu.entries_append, List.append_assoc]
    exact List.perm_append_comm.append_left registry.menubar.entries
  · exact (perm_extendMenus _ _ _).append_left registry.menubar.entries

/-- Contributions add their entries and keep all others. -/
theorem perm_contributeAll (registry : Registry) (contributions : List Contribution) :
    (registry.contributeAll contributions).allEntries.Perm
      (registry.allEntries ++ contributions.flatMap Contribution.entries) := by
  induction contributions using List.reverseRecOn with
  | nil => simp [contributeAll]
  | append_singleton contributions contribution inductionHypothesis =>
    rw [contributeAll_concat, List.flatMap_append, List.flatMap_singleton, ← List.append_assoc]
    exact (perm_contribute _ contribution).trans (inductionHypothesis.append_right _)

/-- A registry contributes all its entries. -/
theorem flatMap_contributions (registry : Registry) :
    registry.contributions.flatMap Contribution.entries = registry.allEntries := by
  rw [contributions, allEntries, sources, List.flatMap_cons, List.flatMap_cons, List.flatMap_map]

/-- The entries of a combined registry are those of the two. -/
theorem perm_merge (registry other : Registry) :
    (registry.merge other).allEntries.Perm (registry.allEntries ++ other.allEntries) := by
  rw [merge_eq_contributeAll, ← flatMap_contributions other]
  exact registry.perm_contributeAll other.contributions

/-- Merging a registry that was given contributions is merging it and then contributing. -/
theorem merge_contributeAll (registry : Registry) {other : Registry}
    (distinct : other.names.Nodup) (contributions : List Contribution) :
    registry.merge (other.contributeAll contributions) =
      (registry.merge other).contributeAll contributions := by
  induction contributions using List.reverseRecOn with
  | nil => rfl
  | append_singleton contributions contribution inductionHypothesis =>
    have stillDistinct := nodup_contributeAll contributions distinct
    rw [contributeAll_concat, contributeAll_concat, merge_contribute registry stillDistinct,
      inductionHypothesis]

/-- Merging an empty registry changes nothing. -/
theorem merge_empty (registry : Registry) : registry.merge {} = registry := by
  simp [merge, Menu.empty]

/-- Merging a third registry into the merge of two gives the same registry as merging it into the
second and the result into the first, if the names of the second are distinct: the same menubar, the
same named menus in the same order with the same entries, the same exclusion menu. Merging the empty
registry changes nothing. The merge of two registries has the entries of both, each as often as it
was there, so as many as the two together. -/
theorem combination_is_associative (first second third : Registry)
    (distinct : second.names.Nodup) :
    (first.merge second).merge third = first.merge (second.merge third) ∧
      first.merge {} = first ∧
      (first.merge second).allEntries.Perm (first.allEntries ++ second.allEntries) ∧
      (first.merge second).entryCount = first.entryCount + second.entryCount := by
  have entries := perm_merge first second
  refine ⟨?_, merge_empty first, entries, ?_⟩
  · calc (first.merge second).merge third
        = (first.merge second).contributeAll third.contributions := merge_eq_contributeAll _ _
      _ = first.merge (second.contributeAll third.contributions) :=
        (merge_contributeAll first distinct _).symm
      _ = first.merge (second.merge third) := by rw [merge_eq_contributeAll second third]
  · calc (first.merge second).entryCount
        = (first.merge second).allEntries.length := entryCount_eq_length _
      _ = (first.allEntries ++ second.allEntries).length := entries.length_eq
      _ = first.entryCount + second.entryCount := by
        rw [List.length_append, entryCount_eq_length, entryCount_eq_length]

/-- Two menus of one name in the second registry: merged into the first they become one menu, and what
the third gives to it comes behind both, but in the second it comes behind one of them. -/
example :
    let second : Registry := { menus := [⟨"file", []⟩, ⟨"file", [.separator]⟩] }
    let third : Registry := { menus := [⟨"file", [.submenu "View" "view"]⟩] }
    (({} : Registry).merge second).merge third ≠ ({} : Registry).merge (second.merge third) := by
  decide +kernel

/-- Registries in which names overlap in different orders. -/
def overlapping : Registry × Registry × Registry :=
  ({ menubar := ⟨"", [.submenu "File" "file"]⟩
     menus := [⟨"file", [.command "Open" (.ofMenu "open" "")]⟩, ⟨"edit", [.separator]⟩] },
    { menubar := ⟨"", [.submenu "View" "view"]⟩
      menus := [⟨"view", []⟩, ⟨"edit", [.command "Paste" (.ofMenu "paste" "")]⟩] },
    { menus := [⟨"help", [.separator]⟩, ⟨"view", [.separator]⟩,
        ⟨"file", [.command "Close" (.ofMenu "close" "")]⟩] })

/-- The menus of three registries are put together under four names. The first two of the registries
have five entries together. -/
theorem overlapping_registries_combine :
    overlapping.2.1.names.Nodup ∧
      (overlapping.1.merge overlapping.2.1).merge overlapping.2.2 =
        overlapping.1.merge (overlapping.2.1.merge overlapping.2.2) ∧
      (overlapping.1.merge (overlapping.2.1.merge overlapping.2.2)).names =
        ["file", "edit", "view", "help"] ∧
      (overlapping.1.merge overlapping.2.1).entryCount = 5 := by
  have distinct : overlapping.2.1.names.Nodup := by decide
  obtain ⟨same, _, _, counted⟩ :=
    combination_is_associative overlapping.1 overlapping.2.1 overlapping.2.2 distinct
  exact ⟨distinct, same, by decide, counted⟩

end Menus.Registry
