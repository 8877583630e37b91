import Mathlib.Data.List.Induction
import Mathlib.Data.List.Nodup
import Menus.Registry

/-!
# What contributions add up to

Contributions are added to a registry one after another, each looking for its menu among those
registered so far. For an empty registry the outcome can be said without that search: the menubar has
the entries given to no name, and there is a menu for each name, in the order in which the names are
first mentioned, with the entries given to that name. A menu that is given no entries is registered
all the same.
-/

namespace Menus

namespace Contribution

/-- The entries given to one menu, in order. -/
def entriesFor (menu : Option String) (contributions : List Contribution) : List (Entry Menu) :=
  (contributions.filter fun contribution => contribution.menu = menu).flatMap Contribution.entries

/-- The names of the menus that entries are given to, in the order of their first mention. -/
def names (contributions : List Contribution) : List String :=
  (contributions.filterMap Contribution.menu).eraseDups

/-- The menu that contributions make up under a name. -/
def menuNamed (contributions : List Contribution) (name : String) : Menu :=
  ⟨name, entriesFor (some name) contributions⟩

/-- A menu whose name is not mentioned is given no entries. -/
theorem entriesFor_of_not_mem {contributions : List Contribution} {name : String}
    (unmentioned : name ∉ names contributions) : entriesFor (some name) contributions = [] := by
  have other : ∀ contribution ∈ contributions, contribution.menu ≠ some name := by
    intro contribution member given
    exact unmentioned (List.mem_eraseDups.mpr (List.mem_filterMap.mpr ⟨contribution, member, given⟩))
  rw [entriesFor, List.filter_eq_nil_iff.mpr fun contribution member => by
    simpa using other contribution member]
  rfl

variable (contributions : List Contribution) (contribution : Contribution)

/-- A later contribution adds to the entries of its own menu. -/
theorem entriesFor_concat (menu : Option String) :
    entriesFor menu (contributions ++ [contribution]) =
      entriesFor menu contributions ++
        if contribution.menu = menu then contribution.entries else [] := by
  by_cases same : contribution.menu = menu <;> simp [entriesFor, same]

/-- A later contribution adds to the menu of its own name. -/
theorem menuNamed_concat (name : String) :
    menuNamed (contributions ++ [contribution]) name =
      if contribution.menu = some name then
        (menuNamed contributions name).append contribution.entries
      else menuNamed contributions name := by
  rw [menuNamed, entriesFor_concat]
  split
  · rfl
  · rw [List.append_nil, menuNamed]

/-- A later contribution to the menubar mentions no name. -/
theorem names_concat_of_menubar (menubar : contribution.menu = none) :
    names (contributions ++ [contribution]) = names contributions := by
  simp [names, menubar]

/-- A later contribution to a named menu mentions the name, which stands last if it is new. -/
theorem names_concat_of_named {name : String} (named : contribution.menu = some name) :
    names (contributions ++ [contribution]) =
      if name ∈ names contributions then names contributions else names contributions ++ [name] := by
  have alone : [contribution].filterMap Contribution.menu = [name] := by simp [named]
  rw [names, List.filterMap_append, alone, List.eraseDups_append, ← names, List.removeAll]
  by_cases known : name ∈ names contributions
  · have mentioned := List.mem_eraseDups.mp known
    rw [List.filter_cons_of_neg (by simp [mentioned]), List.filter_nil,
      List.eraseDups_nil, List.append_nil, if_pos known]
  · have unmentioned := mt List.mem_eraseDups.mpr known
    rw [List.filter_cons_of_pos (by simp [unmentioned]), List.filter_nil,
      if_neg known]
    rfl

/-- No name stands twice among the names. -/
theorem nodup_names : (names contributions).Nodup := by
  induction contributions using List.reverseRecOn with
  | nil => exact List.nodup_nil
  | append_singleton contributions contribution inductionHypothesis =>
    cases given : contribution.menu with
    | none => rwa [names_concat_of_menubar contributions contribution given]
    | some name =>
      rw [names_concat_of_named contributions contribution given]
      split
      · exact inductionHypothesis
      · rename_i absent
        exact List.nodup_append.mpr ⟨inductionHypothesis, List.nodup_singleton name, by
          rintro other member final last rfl
          exact absent (List.mem_singleton.mp last ▸ member)⟩

end Contribution

/-- The registry in which each menu has all entries given to it. -/
def Registry.ofContributions (contributions : List Contribution) : Registry where
  menubar := ⟨"", Contribution.entriesFor none contributions⟩
  menus := (Contribution.names contributions).map (Contribution.menuNamed contributions)

/-- Entries for a registered menu are appended to it, the other menus stay as they are. -/
theorem extendMenus_map_of_mem {names : List String} {name : String} (member : name ∈ names)
    (distinct : names.Nodup) {build : String → Menu} (named : ∀ other, (build other).name = other)
    (entries : List (Entry Menu)) :
    extendMenus name entries (names.map build) =
      names.map fun other => if other = name then (build other).append entries else build other := by
  induction names with
  | nil => cases member
  | cons first rest inductionHypothesis =>
    obtain ⟨absent, restDistinct⟩ := List.nodup_cons.mp distinct
    rw [List.map_cons, List.map_cons, extendMenus, named]
    by_cases same : first = name
    · subst same
      have others : rest.map (fun other =>
          if other = first then (build other).append entries else build other) = rest.map build := by
        apply List.map_congr_left
        intro other among
        rw [if_neg]
        rintro rfl
        exact absent among
      rw [if_pos rfl, if_pos rfl, others]
    · have among : name ∈ rest := by
        rcases List.mem_cons.mp member with rfl | among
        · exact absurd rfl same
        · exact among
      rw [if_neg same, if_neg same, inductionHypothesis among restDistinct]

/-- Entries for a menu that is not registered make a new one behind the others. -/
theorem extendMenus_of_not_mem {menus : List Menu} {name : String}
    (absent : ∀ menu ∈ menus, menu.name ≠ name) (entries : List (Entry Menu)) :
    extendMenus name entries menus = menus ++ [⟨name, entries⟩] := by
  induction menus with
  | nil => rfl
  | cons first rest inductionHypothesis =>
    obtain ⟨firstOther, restOther⟩ := List.forall_mem_cons.mp absent
    rw [extendMenus, if_neg firstOther, inductionHypothesis restOther, List.cons_append]

namespace Registry

variable (contributions : List Contribution) (contribution : Contribution)

/-- A contribution to the menubar leaves the named menus as they are. -/
theorem ofContributions_concat_of_menubar (given : contribution.menu = none) :
    ofContributions (contributions ++ [contribution]) =
      (ofContributions contributions).contribute contribution := by
  have names := Contribution.names_concat_of_menubar contributions contribution given
  have menus : (Contribution.names contributions).map
        (Contribution.menuNamed (contributions ++ [contribution])) =
      (Contribution.names contributions).map (Contribution.menuNamed contributions) := by
    apply List.map_congr_left
    intro name _
    rw [Contribution.menuNamed_concat, given, if_neg nofun]
  rw [ofContributions, names, menus, Contribution.entriesFor_concat, if_pos given, contribute, given]
  rfl

/-- A contribution to a menu that is not registered yet leaves the others as they are. -/
theorem map_menuNamed_concat_of_not_mem {name : String} (given : contribution.menu = some name)
    (unknown : name ∉ Contribution.names contributions) :
    (Contribution.names contributions).map
        (Contribution.menuNamed (contributions ++ [contribution])) =
      (Contribution.names contributions).map (Contribution.menuNamed contributions) := by
  apply List.map_congr_left
  intro other mentioned
  rw [Contribution.menuNamed_concat, given, if_neg]
  rintro ⟨rfl⟩
  exact unknown mentioned

/-- A contribution to a named menu extends the menus as registering it does. -/
theorem menus_concat_of_named {name : String} (given : contribution.menu = some name) :
    (Contribution.names (contributions ++ [contribution])).map
        (Contribution.menuNamed (contributions ++ [contribution])) =
      extendMenus name contribution.entries
        ((Contribution.names contributions).map (Contribution.menuNamed contributions)) := by
  rw [Contribution.names_concat_of_named contributions contribution given]
  by_cases known : name ∈ Contribution.names contributions
  · have extended : ∀ other ∈ Contribution.names contributions,
        Contribution.menuNamed (contributions ++ [contribution]) other =
          if other = name then
            (Contribution.menuNamed contributions other).append contribution.entries
          else Contribution.menuNamed contributions other := by
      intro other _
      simp only [Contribution.menuNamed_concat, given, Option.some.injEq, eq_comm]
    rw [if_pos known, List.map_congr_left extended,
      extendMenus_map_of_mem known (Contribution.nodup_names contributions) fun _ => rfl]
  · have unregistered : ∀ menu ∈ (Contribution.names contributions).map
        (Contribution.menuNamed contributions), menu.name ≠ name := by
      rintro menu member rfl
      obtain ⟨other, mentioned, rfl⟩ := List.mem_map.mp member
      exact known mentioned
    have fresh : Contribution.menuNamed (contributions ++ [contribution]) name =
        ⟨name, contribution.entries⟩ := by
      rw [Contribution.menuNamed_concat, if_pos given, Contribution.menuNamed,
        Contribution.entriesFor_of_not_mem known]
      rfl
    rw [if_neg known, List.map_append,
      map_menuNamed_concat_of_not_mem contributions contribution given known, List.map_singleton,
      fresh, extendMenus_of_not_mem unregistered]

/-- A contribution to a named menu leaves the menubar and the other menus as they are. -/
theorem ofContributions_concat_of_named {name : String} (given : contribution.menu = some name) :
    ofContributions (contributions ++ [contribution]) =
      (ofContributions contributions).contribute contribution := by
  have menubar : Contribution.entriesFor none (contributions ++ [contribution]) =
      Contribution.entriesFor none contributions := by
    rw [Contribution.entriesFor_concat, given, if_neg nofun, List.append_nil]
  rw [ofContributions, menus_concat_of_named contributions contribution given, menubar, contribute,
    given]
  rfl

/-- The last of several contributions comes after the others. -/
theorem contributeAll_concat (registry : Registry) :
    registry.contributeAll (contributions ++ [contribution]) =
      (registry.contributeAll contributions).contribute contribution := by
  simp [contributeAll]

/-- Contributions leave the menubar its name. -/
theorem name_menubar_contributeAll (registry : Registry) :
    (registry.contributeAll contributions).menubar.name = registry.menubar.name := by
  induction contributions generalizing registry with
  | nil => rfl
  | cons contribution rest inductionHypothesis =>
    rw [contributeAll, List.foldl_cons]
    apply (inductionHypothesis (registry.contribute contribution)).trans
    cases named : contribution.menu <;> simp [contribute, named]

/-- Contributions to an empty registry make up the menus they are given to. -/
theorem contributeAll_empty :
    ({} : Registry).contributeAll contributions = ofContributions contributions := by
  induction contributions using List.reverseRecOn with
  | nil => rfl
  | append_singleton contributions contribution inductionHypothesis =>
    have step : ofContributions (contributions ++ [contribution]) =
        (ofContributions contributions).contribute contribution := by
      cases given : contribution.menu with
      | none => exact ofContributions_concat_of_menubar contributions contribution given
      | some name => exact ofContributions_concat_of_named contributions contribution given
    rw [step, ← inductionHypothesis, contributeAll_concat]

end Registry

end Menus
