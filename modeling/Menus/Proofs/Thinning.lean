import Menus.Proofs.Tidying

/-!
# Thinned lists

A list is thinned when items that are no dividers are left out of it and every other item is
replaced by one that is related to it. All dividers stay, so more of them meet than before. Still,
nothing is left when the thinned list is tidied that is not left when the whole list is: a divider
that is taken stands behind an item that is none, in the whole list as well, and where an item
stands behind it in the thinned list, one does in the whole list.
-/

namespace Menus

variable {α β : Type} {divides : α → Bool} {related : α → α → Prop}

/-- Items that are no dividers are left out, the others replaced by related ones. -/
inductive Thinned (divides : α → Bool) (related : α → α → Prop) : List α → List α → Prop where
  | nil : Thinned divides related [] []
  | leave {item : α} {after before : List α} (plain : divides item = false)
      (rest : Thinned divides related after before) : Thinned divides related after (item :: before)
  | keep {left item : α} {after before : List α} (relates : related left item)
      (rest : Thinned divides related after before) :
      Thinned divides related (left :: after) (item :: before)

namespace Thinned

/-- Items replaced one by one make a thinned list. -/
theorem of_forall₂ {after before : List α} (each : List.Forall₂ related after before) :
    Thinned divides related after before := by
  induction each with
  | nil => exact .nil
  | cons relates _ inductionHypothesis => exact .keep relates inductionHypothesis

/-- A list is thinned by leaving everything as it is. -/
theorem refl (same : ∀ item, related item item) (items : List α) :
    Thinned divides related items items :=
  of_forall₂ (List.forall₂_same.mpr fun item _ => same item)

/-- Pieces that are thinned make a thinned list. -/
theorem append {firstAfter firstBefore secondAfter secondBefore : List α}
    (first : Thinned divides related firstAfter firstBefore)
    (second : Thinned divides related secondAfter secondBefore) :
    Thinned divides related (firstAfter ++ secondAfter) (firstBefore ++ secondBefore) := by
  induction first with
  | nil => exact second
  | leave plain _ inductionHypothesis => exact .leave plain inductionHypothesis
  | keep relates _ inductionHypothesis => exact .keep relates inductionHypothesis

/-- Lists made of pieces are thinned piece by piece. -/
theorem flatMap {each : β → β → Prop} {left whole : β → List α} {after before : List β}
    (pieces : ∀ piece source, each piece source →
      Thinned divides related (left piece) (whole source))
    (sources : List.Forall₂ each after before) :
    Thinned divides related (after.flatMap left) (before.flatMap whole) := by
  induction sources with
  | nil => exact .nil
  | cons relates _ inductionHypothesis =>
    rw [List.flatMap_cons, List.flatMap_cons]
    exact (pieces _ _ relates).append inductionHypothesis

/-- At most one item, which is kept or left out. -/
theorem toList {after before : Option α}
    (kept : ∀ left, after = some left → ∃ item, before = some item ∧ related left item)
    (plain : after = none → ∀ item, before = some item → divides item = false) :
    Thinned divides related after.toList before.toList := by
  cases after with
  | some left =>
    obtain ⟨item, rfl, relates⟩ := kept left rfl
    exact .keep relates .nil
  | none =>
    cases before with
    | none => exact .nil
    | some item => exact .leave (plain rfl item rfl) .nil

/-- What is taken of the thinned list is found in what is taken of the whole one, if an item that is
no divider stands in front of the whole list where one stands in front of the thinned list. -/
theorem taken (respects : ∀ left item, related left item → divides left = divides item)
    {after before : List α} (thinned : Thinned divides related after before)
    {behindLeft behindItem : Bool} (front : behindLeft = true → behindItem = true) :
    List.SublistForall₂ related (taken divides behindLeft after)
      (taken divides behindItem before) := by
  induction thinned generalizing behindLeft behindItem with
  | nil => exact .nil
  | leave plain _ inductionHypothesis =>
    simp only [Menus.taken, plain, Bool.false_and, Bool.false_eq_true, if_false]
    exact .cons_right (inductionHypothesis fun _ => rfl)
  | @keep left item after before relates _ inductionHypothesis =>
    have same := respects left item relates
    have rest : List.SublistForall₂ related (Menus.taken divides (!divides item) after)
        (Menus.taken divides (!divides item) before) := inductionHypothesis id
    rw [Menus.taken, Menus.taken, same]
    by_cases passed : (divides item && !behindItem) = true
    · have alsoPassed : (divides item && !behindLeft) = true := by
        cases behindLeft <;> simp_all
      rw [if_pos passed, if_pos alsoPassed]
      exact rest
    · rw [if_neg passed]
      split
      · exact .cons_right rest
      · exact .cons relates rest

end Thinned

/-- An item of a list that is related to part of another one is related to an item of that one. -/
theorem exists_of_mem_sublistForall₂ {after before : List α}
    (part : List.SublistForall₂ related after before) {left : α} (member : left ∈ after) :
    ∃ item ∈ before, related left item := by
  induction part with
  | nil => exact absurd member List.not_mem_nil
  | cons relates _ inductionHypothesis =>
    rcases List.mem_cons.mp member with rfl | later
    · exact ⟨_, List.mem_cons_self, relates⟩
    · obtain ⟨item, among, found⟩ := inductionHypothesis later
      exact ⟨item, List.mem_cons_of_mem _ among, found⟩
  | cons_right _ inductionHypothesis =>
    obtain ⟨item, among, found⟩ := inductionHypothesis member
    exact ⟨item, List.mem_cons_of_mem _ among, found⟩

/-- Dividers are dropped from the end of a list item by item: an item stays if anything behind it
does, or if it is no divider. -/
theorem rdropWhile_cons (item : α) (items : List α) :
    (item :: items).rdropWhile divides =
      if items.rdropWhile divides = [] ∧ divides item = true then []
      else item :: items.rdropWhile divides := by
  rw [List.rdropWhile, List.rdropWhile, List.reverse_cons, List.dropWhile_append]
  cases behind : items.reverse.dropWhile divides <;>
    cases divider : divides item <;> simp [divider]

/-- Dropping dividers from the end keeps a list related to part of another one. -/
theorem sublistForall₂_rdropWhile
    (respects : ∀ left item, related left item → divides left = divides item)
    {after before : List α} (part : List.SublistForall₂ related after before) :
    List.SublistForall₂ related (after.rdropWhile divides) (before.rdropWhile divides) := by
  induction part with
  | nil => exact .nil
  | @cons left item after before relates _ inductionHypothesis =>
    rw [rdropWhile_cons, rdropWhile_cons, respects left item relates]
    split
    · exact .nil
    · rename_i stays
      rw [if_neg]
      · exact .cons relates inductionHypothesis
      · rintro ⟨nothing, divider⟩
        rw [nothing] at inductionHypothesis
        cases behind : after.rdropWhile divides with
        | nil => exact stays ⟨behind, divider⟩
        | cons last rest =>
          rw [behind] at inductionHypothesis
          cases inductionHypothesis
  | @cons_right item after before _ inductionHypothesis =>
    rw [rdropWhile_cons]
    split
    · rename_i nothing
      rwa [nothing.1] at inductionHypothesis
    · exact .cons_right inductionHypothesis

/-- The tidied thinned list is found in the tidied whole list. -/
theorem Thinned.tidied (respects : ∀ left item, related left item → divides left = divides item)
    {after before : List α} (thinned : Thinned divides related after before) :
    List.SublistForall₂ related (tidied divides after) (tidied divides before) := by
  rw [Menus.tidied, Menus.tidied, ← taken_false_eq, ← taken_false_eq]
  exact sublistForall₂_rdropWhile respects (thinned.taken respects id)

end Menus
