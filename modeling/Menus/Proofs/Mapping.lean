import Mathlib.Data.List.Forall2

/-!
# Mappings that can fail

What is mapped item by item has a result exactly if every item has one, and then it has one result
for each item. So two such mappings compare as they do item by item.
-/

namespace Menus

/-- Every result of a mapping that can fail comes from an item of the list. -/
theorem exists_of_mem_mapM {α β : Type} {f : α → Option β} {items : List α} {results : List β}
    (mapped : items.mapM f = some results) {result : β} (member : result ∈ results) :
    ∃ item ∈ items, f item = some result := by
  induction items generalizing results with
  | nil =>
    cases mapped
    exact absurd member List.not_mem_nil
  | cons item rest inductionHypothesis =>
    simp only [List.mapM_cons, Option.bind_eq_bind, Option.bind_eq_some_iff, Option.pure_def,
      Option.some.injEq] at mapped
    obtain ⟨first, atItem, later, atRest, rfl⟩ := mapped
    rcases List.mem_cons.mp member with rfl | member
    · exact ⟨item, List.mem_cons_self, atItem⟩
    · obtain ⟨source, among, found⟩ := inductionHypothesis atRest member
      exact ⟨source, List.mem_cons_of_mem _ among, found⟩

/-- Every item of a mapping that can fail has its result among the results. -/
theorem exists_result_of_mapM {α β : Type} {f : α → Option β} {items : List α} {results : List β}
    (mapped : items.mapM f = some results) {item : α} (member : item ∈ items) :
    ∃ result ∈ results, f item = some result := by
  induction items generalizing results with
  | nil => exact absurd member List.not_mem_nil
  | cons first rest inductionHypothesis =>
    simp only [List.mapM_cons, Option.bind_eq_bind, Option.bind_eq_some_iff, Option.pure_def,
      Option.some.injEq] at mapped
    obtain ⟨result, atFirst, later, atRest, rfl⟩ := mapped
    rcases List.mem_cons.mp member with rfl | member
    · exact ⟨result, List.mem_cons_self, atFirst⟩
    · obtain ⟨other, among, found⟩ := inductionHypothesis atRest member
      exact ⟨other, List.mem_cons_of_mem _ among, found⟩

/-- A mapping that can fail gives a result exactly when it does for every item. -/
theorem isSome_mapM_iff {α β : Type} (f : α → Option β) (items : List α) :
    (items.mapM f).isSome = true ↔ ∀ item ∈ items, (f item).isSome = true := by
  induction items with
  | nil => simp
  | cons item rest inductionHypothesis =>
    cases first : f item with
    | none => simp [List.mapM_cons, first]
    | some result =>
      cases later : rest.mapM f with
      | none => simpa [List.mapM_cons, first, later] using inductionHypothesis
      | some results => simpa [List.mapM_cons, first, later] using inductionHypothesis

/-- A mapping that can fail keeps its result when it fails less often. -/
theorem mapM_eq_some_of_extends {α β : Type} {f g : α → Option β} {items : List α}
    {results : List β}
    (extended : ∀ item ∈ items, ∀ result, f item = some result → g item = some result)
    (mapped : items.mapM f = some results) : items.mapM g = some results := by
  induction items generalizing results with
  | nil => exact mapped
  | cons item rest inductionHypothesis =>
    simp only [List.mapM_cons, Option.bind_eq_bind, Option.bind_eq_some_iff] at mapped ⊢
    obtain ⟨result, first, later, following, same⟩ := mapped
    refine ⟨result, extended item List.mem_cons_self result first, later, ?_, same⟩
    exact inductionHypothesis (fun item member => extended item (List.mem_cons_of_mem _ member))
      following

/-- A mapping that can fail gives what another one gives, changed item by item, if it does so for
every item. -/
theorem mapM_eq_some_map {α β γ : Type} {f : α → Option β} {g : α → Option γ} (change : β → γ)
    {items : List α} {results : List β}
    (changed : ∀ item ∈ items, ∀ result, f item = some result → g item = some (change result))
    (mapped : items.mapM f = some results) : items.mapM g = some (results.map change) := by
  induction items generalizing results with
  | nil =>
    cases mapped
    rfl
  | cons item rest inductionHypothesis =>
    simp only [List.mapM_cons, Option.bind_eq_bind, Option.bind_eq_some_iff, Option.pure_def,
      Option.some.injEq] at mapped ⊢
    obtain ⟨result, first, later, following, rfl⟩ := mapped
    rw [List.forall_mem_cons] at changed
    exact ⟨change result, changed.1 result first, later.map change,
      inductionHypothesis changed.2 following, rfl⟩

/-- Items whose results are known to be left out afterwards can be left out before. -/
theorem mapM_filter {α β : Type} {f : α → Option β} {keep : α → Bool} {kept : β → Bool}
    {items : List α}
    (agree : ∀ item ∈ items, ∀ result, f item = some result → kept result = keep item)
    (returns : ∀ item ∈ items, keep item = false → (f item).isSome = true) :
    (items.filter keep).mapM f = (items.mapM f).map (List.filter kept) := by
  induction items with
  | nil => rfl
  | cons item rest inductionHypothesis =>
    rw [List.forall_mem_cons] at agree returns
    have following := inductionHypothesis agree.2 returns.2
    cases chosen : keep item with
    | true =>
      rw [List.filter_cons_of_pos chosen, List.mapM_cons, List.mapM_cons, following]
      cases atItem : f item with
      | none => rfl
      | some result =>
        have taken : kept result = true := (agree.1 result atItem).trans chosen
        cases later : rest.mapM f <;> simp [taken]
    | false =>
      obtain ⟨result, atItem⟩ := Option.isSome_iff_exists.mp (returns.1 chosen)
      have left : kept result = false := (agree.1 result atItem).trans chosen
      rw [List.filter_cons_of_neg (by simp [chosen]), following, List.mapM_cons, atItem]
      cases later : rest.mapM f <;> simp [left]

/-- A mapping that can fail gives one result for each item. -/
theorem forall₂_of_mapM {α β : Type} {f : α → Option β} {items : List α} {results : List β}
    (mapped : items.mapM f = some results) :
    List.Forall₂ (fun item result => f item = some result) items results := by
  induction items generalizing results with
  | nil =>
    cases mapped
    exact .nil
  | cons item rest inductionHypothesis =>
    simp only [List.mapM_cons, Option.bind_eq_bind, Option.bind_eq_some_iff, Option.pure_def,
      Option.some.injEq] at mapped
    obtain ⟨result, first, later, following, rfl⟩ := mapped
    exact .cons first (inductionHypothesis following)

/-- Two mappings that can fail give related results if they do so item by item. -/
theorem forall₂_of_mapM_mapM {α β γ : Type} {f : α → Option β} {g : α → Option γ}
    {related : β → γ → Prop} {items : List α} {results : List β} {others : List γ}
    (relates : ∀ item ∈ items, ∀ result other, f item = some result → g item = some other →
      related result other)
    (mapped : items.mapM f = some results) (alsoMapped : items.mapM g = some others) :
    List.Forall₂ related results others := by
  induction items generalizing results others with
  | nil =>
    cases mapped
    cases alsoMapped
    exact .nil
  | cons item rest inductionHypothesis =>
    simp only [List.mapM_cons, Option.bind_eq_bind, Option.bind_eq_some_iff, Option.pure_def,
      Option.some.injEq] at mapped alsoMapped
    obtain ⟨result, first, later, following, rfl⟩ := mapped
    obtain ⟨other, second, more, alsoFollowing, rfl⟩ := alsoMapped
    rw [List.forall_mem_cons] at relates
    exact .cons (relates.1 result other first second)
      (inductionHypothesis relates.2 following alsoFollowing)

/-- Two mappings that can fail give what looks the same if they do so item by item. -/
theorem mapM_map_congr {α β γ : Type} {f g : α → Option β} (look : β → γ) {items : List α}
    (same : ∀ item ∈ items, (f item).map look = (g item).map look) :
    (items.mapM f).map (List.map look) = (items.mapM g).map (List.map look) := by
  induction items with
  | nil => rfl
  | cons item rest inductionHypothesis =>
    rw [List.forall_mem_cons] at same
    have first := same.1
    have following := inductionHypothesis same.2
    simp only [List.mapM_cons, Option.bind_eq_bind, Option.pure_def]
    cases atItem : f item with
    | none => cases other : g item <;> simp_all
    | some result =>
      obtain ⟨other, there, alike⟩ : ∃ other, g item = some other ∧ look other = look result := by
        simpa [atItem, eq_comm] using first
      rw [there]
      cases later : rest.mapM f <;> cases others : rest.mapM g <;> simp_all

end Menus
