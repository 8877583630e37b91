import Menus.Proofs.Attachment

/-!
# How an expanded menu is put together

Entries contribute to a menu one after another, and what an entry contributes does not depend on the
menu, but for a separator: it is taken only behind an entry that is none. Each entry of a menu put
together is therefore of one of four kinds, which `Assembled` lists with all that the status policy
guarantees of them.

Every expanded menu has been put together from entries to which expanded menus are attached. A
property of menus that putting together establishes, given that the attached menus have it, is hence
a property of all expanded menus. This is the induction that statements about expanded trees use;
none of them needs to look at chains, levels or warnings again.
-/

namespace Menus

/-- The availability that a submenu takes from its menu. -/
def Menu.availability (menu : Menu) : Availability :=
  if menu.hasEnabled then .enabled else .disabled

/-- If the entry is a submenu, a menu of its name is attached to it that has the property. -/
def Entry.Opens (property : Menu → Prop) (entry : Entry Menu) : Prop :=
  ∀ name child, entry.kind = .submenu name child →
    ∃ menu : Menu, child = some menu ∧ menu.name = name ∧ property menu

/-- An entry that refers to no menu opens none. -/
theorem Entry.opens_of_no_target {property : Menu → Prop} {entry : Entry Menu}
    (leaf : entry.target? = none) : entry.Opens property := by
  intro name child opens
  simp [target?, opens] at leaf

/-- A submenu opens the menu attached to it. -/
theorem Entry.opens_withChild {property : Menu → Prop} {entry : Entry Menu} {menu : Menu}
    (refers : entry.target? = some menu.name) (holds : property menu) :
    (entry.withChild menu).Opens property := by
  obtain ⟨kind, label, optional, status⟩ := entry
  cases kind with
  | submenu name child =>
    cases refers
    rintro _ _ ⟨⟩
    exact ⟨menu, rfl, rfl, holds⟩
  | command request | separator | generated generator => simp [target?] at refers

/-- The status policy adds to a menu what it keeps of an entry that is no separator. -/
theorem Menu.addChecked_eq_append (statusOf : Request → Status) (menu : Menu) (entry : Entry Menu)
    (item : entry.isSeparator = false) :
    menu.addChecked statusOf entry = menu.append (entry.kept? statusOf).toList := by
  cases kept : entry.kept? statusOf <;> simp [addChecked, item, kept, add]

/-- The status policy changes no more than the status of an entry it keeps. -/
theorem Entry.kind_of_kept {statusOf : Request → Status} {entry kept : Entry Menu}
    (result : entry.kept? statusOf = some kept) : kept.kind = entry.kind := by
  rw [kept?] at result
  split at result
  · rename_i request runs
    dsimp only at result
    split at result
    · simp at result
    · rw [← Option.some.inj result, runs]
  · rename_i name child opens
    split at result
    · simp at result
    · rw [← Option.some.inj result, opens]
  · rw [Option.some.inj result]

/-- A command that the status policy keeps has the status reported for it, which is known, and can
be run if the command is optional. -/
theorem Entry.kept_command {statusOf : Request → Status} {entry kept : Entry Menu}
    {request : Request} (runs : entry.kind = .command request)
    (result : entry.kept? statusOf = some kept) :
    kept = { entry with status := statusOf request } ∧ (statusOf request).isUnknown = false ∧
      (entry.optional = true → (statusOf request).isEnabled = true) := by
  simp only [kept?, runs] at result
  split at result
  · simp at result
  · rename_i passed
    simp only [Bool.or_eq_true, Bool.and_eq_true, Bool.not_eq_true', not_or, Bool.not_eq_true,
      not_and, Bool.not_eq_false] at passed
    refine ⟨?_, passed⟩
    rw [runs]
    exact (Option.some.inj result).symm

/-- A submenu that the status policy keeps is as available as its menu, and has something enabled in
that menu if the submenu is optional. -/
theorem Entry.kept_submenu {statusOf : Request → Status} {entry kept : Entry Menu}
    {name : String} {menu : Menu} (opens : entry.kind = .submenu name (some menu))
    (result : entry.kept? statusOf = some kept) :
    kept = { entry with status := entry.status.withEnabled menu.hasEnabled } ∧
      (entry.optional = true → menu.hasEnabled = true) := by
  simp only [kept?, opens] at result
  split at result
  · simp at result
  · rename_i passed
    simp only [Bool.and_eq_true, Bool.not_eq_true', not_and, Bool.not_eq_false] at passed
    refine ⟨?_, passed⟩
    rw [opens]
    exact (Option.some.inj result).symm

/-- What an entry of a menu can be that was put together from entries with attached menus; the
attached menus have the property. -/
inductive Assembled (context : Context) (property : Menu → Prop) (entry : Entry Menu) : Prop where
  | command {request : Request} (runs : entry.kind = .command request)
      (known : entry.status.isUnknown = false)
      (usable : entry.optional = true → entry.status.isEnabled = true)
  | submenu {menu : Menu} (opens : entry.kind = .submenu menu.name (some menu))
      (holds : property menu) (available : entry.status.availability = menu.availability)
      (usable : entry.optional = true → menu.hasEnabled = true)
  | separator (divides : entry.kind = .separator)
  | generated {generator : Generator} (member : entry ∈ generator.entries context)

namespace Registry

variable (registry : Registry) (context : Context)

/-- What an entry whose submenu is attached adds to a menu that takes it. -/
def contribution (entry : Entry Menu) : List (Entry Menu) :=
  match entry.kind with
  | .command request =>
    if registry.exclusions.hasRequest request then []
    else (entry.kept? context.statusOf).toList
  | .generated generator => generator.entries context
  | _ => (entry.kept? context.statusOf).toList

/-- A menu takes the contribution of every entry except that of a separator with nothing to
divide. -/
theorem place_eq (menu : Menu) (entry : Entry Menu) :
    registry.place context menu entry =
      if entry.isSeparator && !menu.endsInItem then menu
      else menu.append (registry.contribution context entry) := by
  obtain ⟨kind, label, optional, status⟩ := entry
  cases kind with
  | command request =>
    by_cases excluded : registry.exclusions.hasRequest request
    · simp [place, contribution, excluded, Entry.isSeparator]
    · simpa [place, contribution, excluded, Entry.isSeparator] using
        Menu.addChecked_eq_append _ menu _ rfl
  | submenu name child =>
    simpa [place, contribution, Entry.isSeparator] using Menu.addChecked_eq_append _ menu _ rfl
  | separator =>
    cases behind : menu.endsInItem <;>
      simp [place, contribution, Entry.isSeparator, Menu.addChecked, behind, Entry.kept?, Menu.add]
  | generated generator => simp [place, contribution, Entry.isSeparator]

/-- Placing an entry keeps the name of the menu. -/
theorem name_place (menu : Menu) (entry : Entry Menu) :
    (registry.place context menu entry).name = menu.name := by
  rw [place_eq]
  split <;> rfl

/-- A menu put together has the name it is given. -/
theorem name_assemble (name : String) (entries : List (Entry Menu)) :
    (registry.assemble context name entries).name = name := by
  have placed (menu : Menu) :
      (entries.foldl (registry.place context) menu).name = menu.name := by
    induction entries generalizing menu with
    | nil => rfl
    | cons entry rest inductionHypothesis =>
      rw [List.foldl_cons, inductionHypothesis, name_place]
  rw [assemble, Menu.dropTrailingSeparator]
  split
  · split <;> exact placed _
  · exact placed _

/-- Dropping a trailing separator adds no entry. -/
theorem mem_of_mem_dropTrailingSeparator {menu : Menu} {entry : Entry Menu}
    (member : entry ∈ menu.dropTrailingSeparator.entries) : entry ∈ menu.entries := by
  rw [Menu.dropTrailingSeparator] at member
  split at member
  · split at member
    · exact List.dropLast_subset _ member
    · exact member
  · exact member

/-- Each entry of a menu stood there before the entries were placed or is contributed by one of
them. -/
theorem mem_of_mem_foldl_place {menu : Menu} {entries : List (Entry Menu)} {entry : Entry Menu}
    (member : entry ∈ (entries.foldl (registry.place context) menu).entries) :
    entry ∈ menu.entries ∨ ∃ source ∈ entries, entry ∈ registry.contribution context source := by
  induction entries generalizing menu with
  | nil => exact .inl member
  | cons source rest inductionHypothesis =>
    rcases inductionHypothesis member with early | ⟨later, among, contributed⟩
    · rw [place_eq] at early
      split at early
      · exact .inl early
      · rcases List.mem_append.mp early with before | contributed
        · exact .inl before
        · exact .inr ⟨source, List.mem_cons_self, contributed⟩
    · exact .inr ⟨later, List.mem_cons_of_mem _ among, contributed⟩

/-- Each entry of a menu put together is contributed by one of the entries it is put together
from. -/
theorem mem_contribution_of_mem_assemble {name : String} {entries : List (Entry Menu)}
    {entry : Entry Menu} (member : entry ∈ (registry.assemble context name entries).entries) :
    ∃ source ∈ entries, entry ∈ registry.contribution context source := by
  have placed := registry.mem_of_mem_foldl_place context (mem_of_mem_dropTrailingSeparator member)
  rcases placed with before | contributed
  · exact absurd before List.not_mem_nil
  · exact contributed

variable {property : Menu → Prop}

/-- The contribution of an entry consists of entries of the four kinds. -/
theorem assembled_of_mem_contribution {source entry : Entry Menu} (attached : source.Opens property)
    (contributed : entry ∈ registry.contribution context source) :
    Assembled context property entry := by
  cases kind : source.kind with
  | command request =>
    simp only [contribution, kind] at contributed
    split at contributed
    · exact absurd contributed List.not_mem_nil
    · obtain ⟨rfl, known, usable⟩ := Entry.kept_command kind (by simpa using contributed)
      exact .command kind known usable
  | submenu name child =>
    obtain ⟨menu, rfl, rfl, holds⟩ := attached name child kind
    simp only [contribution, kind] at contributed
    obtain ⟨rfl, usable⟩ := Entry.kept_submenu kind (by simpa using contributed)
    exact .submenu kind holds rfl usable
  | separator =>
    simp only [contribution, kind, Entry.kept?, Option.toList_some, List.mem_singleton] at contributed
    subst contributed
    exact .separator kind
  | generated generator =>
    simp only [contribution, kind] at contributed
    exact .generated contributed

/-- The entries of a menu put together are of the four kinds. -/
theorem assembled_of_mem_assemble {name : String} {entries : List (Entry Menu)}
    (attached : ∀ source ∈ entries, source.Opens property) {entry : Entry Menu}
    (member : entry ∈ (registry.assemble context name entries).entries) :
    Assembled context property entry := by
  obtain ⟨source, among, contributed⟩ := registry.mem_contribution_of_mem_assemble context member
  exact registry.assembled_of_mem_contribution context (attached source among) contributed

/-- An expansion attaches to an entry an empty menu or what opening the registered template gives;
either way the entry opens a menu of its own name. -/
theorem opens_of_attach? {openMenu : Menu → Option Expanded} {chain : List String}
    {entry : Entry Menu} {attached : Entry Menu × List Warning}
    (result : registry.attach? openMenu chain entry = some attached)
    (empty : ∀ name, property (.empty name))
    (opened : ∀ template expanded, openMenu template = some expanded →
      expanded.menu.name = template.name ∧ property expanded.menu) :
    attached.1.Opens property := by
  cases refers : entry.target? with
  | none =>
    rw [attach?_of_no_target refers] at result
    cases result
    exact Entry.opens_of_no_target refers
  | some name =>
    cases entered : registry.entered? chain entry with
    | none =>
      obtain ⟨warning, emptied⟩ := emptied_of_not_entered refers entered
      rw [emptied] at result
      cases result
      exact Entry.opens_withChild refers (empty name)
    | some template =>
      rw [attach?_of_entered entered, Option.map_eq_some_iff] at result
      obtain ⟨expanded, opens, rfl⟩ := result
      obtain ⟨sameName, holds⟩ := opened template expanded opens
      obtain ⟨named, _⟩ := entered?_eq_some_iff.mp entered
      rw [← sameName] at named
      exact Entry.opens_withChild named holds

/-- A property of all menus that are put together from entries whose attached menus have it is a
property of all expanded menus.

Proof: by induction on the levels. An expansion puts a menu together from the entries of its
template. To each of these an empty menu is attached, which has been put together from no entries,
or a menu expanded with fewer levels. -/
theorem expanded_of_assembled
    (assembled : ∀ name entries, (∀ entry ∈ entries, Entry.Opens property entry) →
      property (registry.assemble context name entries))
    (levels : Nat) (chain : List String) (source : Menu) (expanded : Expanded)
    (returned : registry.expandWithin context levels chain source = some expanded) :
    expanded.menu.name = source.name ∧ property expanded.menu := by
  induction levels generalizing chain source expanded with
  | zero => simp [expandWithin] at returned
  | succ levels inductionHypothesis =>
    rw [expandWithin] at returned
    obtain ⟨attached, mapped, rfl⟩ := Option.map_eq_some_iff.mp returned
    refine ⟨registry.name_assemble context _ _, assembled _ _ ?_⟩
    intro entry member
    obtain ⟨result, among, rfl⟩ := List.mem_map.mp member
    obtain ⟨sourceEntry, _, atEntry⟩ := exists_of_mem_mapM mapped among
    refine registry.opens_of_attach? atEntry ?_ ?_
    · intro name
      exact assembled name [] (fun _ absent => absurd absent List.not_mem_nil)
    · intro template inner entered
      exact inductionHypothesis _ template inner entered

end Registry

end Menus
