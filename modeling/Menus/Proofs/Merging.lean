import Menus.Proofs.Blocks
import Menus.Proofs.Contributions

/-!
# Reading and merging

A registry can be extended in two ways: by reading definitions into it, which gives entries to one
menu after another, and by merging a registry that was read on its own, which gives each menu all
its entries at once. Both come to the same. Entries for one menu are appended in the order in which
they are given, so it does not matter that entries for other menus are given in between, as long as
the menu is registered before it gets more. The first entries for a menu register it, and the menus
of a registry that was read on its own stand in the order in which they were first given entries; so
both ways register new menus in the same order.
-/

namespace Menus

/-- Entries given to a menu twice are appended as if given at once. -/
theorem extendMenus_twice (name : String) (entries more : List (Entry Menu)) (menus : List Menu) :
    extendMenus name more (extendMenus name entries menus) =
      extendMenus name (entries ++ more) menus := by
  induction menus with
  | nil => simp [extendMenus, Menu.append]
  | cons menu rest inductionHypothesis =>
    by_cases same : menu.name = name
    · simp [extendMenus, Menu.append, same]
    · simp [extendMenus, same, inductionHypothesis]

/-- A menu that is given entries is registered. -/
theorem exists_named_extendMenus (name : String) (entries : List (Entry Menu))
    (menus : List Menu) : ∃ menu ∈ extendMenus name entries menus, menu.name = name := by
  induction menus with
  | nil => exact ⟨⟨name, entries⟩, List.mem_singleton_self _, rfl⟩
  | cons menu rest inductionHypothesis =>
    rw [extendMenus]
    split
    · rename_i same
      exact ⟨menu.append entries, List.mem_cons_self, same⟩
    · obtain ⟨extended, member, same⟩ := inductionHypothesis
      exact ⟨extended, List.mem_cons_of_mem _ member, same⟩

/-- A registered menu stays registered. -/
theorem exists_named_extendMenus_of_exists {name : String} {menus : List Menu}
    (registered : ∃ menu ∈ menus, menu.name = name) (other : String)
    (entries : List (Entry Menu)) : ∃ menu ∈ extendMenus other entries menus, menu.name = name := by
  induction menus with
  | nil => simp at registered
  | cons menu rest inductionHypothesis =>
    rw [extendMenus]
    rw [List.exists_mem_cons_iff] at registered
    split
    · rwa [List.exists_mem_cons_iff]
    · rw [List.exists_mem_cons_iff]
      exact registered.imp_right inductionHypothesis

/-- Entries for a registered menu and entries for another one can be given in either order. -/
theorem extendMenus_comm {name other : String} (different : name ≠ other) {menus : List Menu}
    (registered : ∃ menu ∈ menus, menu.name = name) (entries others : List (Entry Menu)) :
    extendMenus name entries (extendMenus other others menus) =
      extendMenus other others (extendMenus name entries menus) := by
  induction menus with
  | nil => simp at registered
  | cons menu rest inductionHypothesis =>
    by_cases isName : menu.name = name
    · simp [extendMenus, isName, different]
    · by_cases isOther : menu.name = other
      · simp [extendMenus, isOther, Ne.symm different]
      · have later : ∃ menu ∈ rest, menu.name = name := by
          simpa [isName] using registered
        simp [extendMenus, isName, isOther, inductionHypothesis later]

/-- Gives each of some menus its entries. -/
def extendByMenus (menus others : List Menu) : List Menu :=
  others.foldl (fun menus menu => extendMenus menu.name menu.entries menus) menus

/-- More entries for a registered menu can be given before the entries of other menus or after
them. -/
theorem extendByMenus_extendMenus {name : String} {others : List Menu}
    (unmentioned : name ∉ others.map Menu.name) {menus : List Menu}
    (registered : ∃ menu ∈ menus, menu.name = name) (entries : List (Entry Menu)) :
    extendByMenus (extendMenus name entries menus) others =
      extendMenus name entries (extendByMenus menus others) := by
  induction others generalizing menus with
  | nil => rfl
  | cons other rest inductionHypothesis =>
    rw [List.map_cons, List.mem_cons, not_or] at unmentioned
    obtain ⟨different, unmentioned⟩ := unmentioned
    have stays := exists_named_extendMenus_of_exists registered other.name other.entries
    rw [extendByMenus, List.foldl_cons, ← extendMenus_comm different registered]
    exact inductionHypothesis unmentioned stays

/-- Where menus have different names, extending by them after one was given more entries is
extending by them and then giving it the entries. -/
theorem extendByMenus_of_extended {others : List Menu}
    (distinct : (others.map Menu.name).Nodup) (menus : List Menu) (name : String)
    (entries : List (Entry Menu)) :
    extendByMenus menus (extendMenus name entries others) =
      extendMenus name entries (extendByMenus menus others) := by
  induction others generalizing menus with
  | nil => rfl
  | cons other rest inductionHypothesis =>
    obtain ⟨absent, distinct⟩ := List.nodup_cons.mp distinct
    rw [extendMenus]
    split
    · rename_i same
      subst same
      have registered := exists_named_extendMenus other.name other.entries menus
      calc extendByMenus menus (other.append entries :: rest)
          = extendByMenus (extendMenus other.name (other.entries ++ entries) menus) rest := rfl
        _ = extendByMenus (extendMenus other.name entries
              (extendMenus other.name other.entries menus)) rest := by rw [extendMenus_twice]
        _ = extendMenus other.name entries (extendByMenus menus (other :: rest)) :=
          extendByMenus_extendMenus absent registered entries
    · exact inductionHypothesis distinct (extendMenus other.name other.entries menus)

namespace Registry

/-- Merging a registry that was given a contribution is merging it and then contributing. -/
theorem merge_contribute (registry : Registry) {other : Registry}
    (distinct : (other.menus.map Menu.name).Nodup) (contribution : Contribution) :
    registry.merge (other.contribute contribution) =
      (registry.merge other).contribute contribution := by
  cases given : contribution.menu with
  | none => simp [merge, contribute, given, Menu.append]
  | some name =>
    have menus := extendByMenus_of_extended distinct registry.menus name contribution.entries
    simp only [extendByMenus] at menus
    simp only [merge, contribute, given, menus]

/-- The menus that contributions to an empty registry make up have different names. -/
theorem nodup_names_contributeAll (contributions : List Contribution) :
    ((({} : Registry).contributeAll contributions).menus.map Menu.name).Nodup := by
  have names : (Contribution.names contributions).map
      (Menu.name ∘ Contribution.menuNamed contributions) = Contribution.names contributions :=
    List.map_id _
  rw [contributeAll_empty, ofContributions, List.map_map, names]
  exact Contribution.nodup_names contributions

/-- Contributing to a registry is contributing to an empty one and merging it.

Proof: by induction on the contributions, the last one first. -/
theorem contributeAll_eq_merge (registry : Registry) (contributions : List Contribution) :
    registry.contributeAll contributions =
      registry.merge (({} : Registry).contributeAll contributions) := by
  induction contributions using List.reverseRecOn with
  | nil => simp [contributeAll, merge, Menu.empty]
  | append_singleton contributions contribution inductionHypothesis =>
    rw [contributeAll_concat, contributeAll_concat,
      merge_contribute registry (nodup_names_contributeAll contributions), inductionHypothesis]

/-- Reading a block of menus into a registry gives what reading it into an empty registry and merging
the result gives, and leaves the cursor at the same token with the same diagnostics. The block may be
malformed in any way, and the registry may hold any menus. Turn by turn, where each menu is extended in
its place as soon as its body is met, the reading comes to the same. -/
theorem reading_is_merging (registry : Registry) (cursor : Cursor) :
    (registry.read cursor).1 = registry.merge (({} : Registry).read cursor).1 ∧
      (registry.read cursor).2 = (({} : Registry).read cursor).2 ∧
      registry.readByTurns cursor = registry.read cursor :=
  ⟨registry.contributeAll_eq_merge _, rfl, registry.readByTurns_eq cursor⟩

end Registry

end Menus
