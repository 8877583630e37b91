import Mathlib.Data.List.Destutter
import Mathlib.Data.List.DropRight

/-!
# Tidied lists

Some items of a list are dividers. To tidy the list is to collapse every run of dividers to its first
and to leave none at either end. This looks at the whole list. A list that grows at its end can be
kept tidy as it grows, except for a divider that may stand last: a divider is taken only behind an
item that is none, and which item stands last is all that has to be known for that. `taken_false_eq`
says that both ways give the same.

What is taken from a list put together from pieces is put together from what is taken from the
pieces. A piece that divides its own items properly is taken as a whole wherever it stands.
-/

namespace Menus

variable {α β : Type} (divides : α → Bool)

/-- The two items are not both dividers. -/
def Apart (before after : α) : Prop :=
  ¬(divides before = true ∧ divides after = true)

instance : DecidableRel (Apart divides) :=
  fun _ _ => inferInstanceAs (Decidable (¬_))

/-- Every run of dividers collapsed to its first. -/
def collapsed (items : List α) : List α :=
  items.destutter (Apart divides)

/-- Every run of dividers collapsed to its first, and none in front. -/
def headed (items : List α) : List α :=
  (collapsed divides items).dropWhile divides

/-- Every run of dividers collapsed to its first, and none at either end. -/
def tidied (items : List α) : List α :=
  (headed divides items).rdropWhile divides

/-- The items that are taken when a divider is taken only behind an item that is none. The flag says
whether such an item stands in front of the list. -/
def taken : Bool → List α → List α
  | _, [] => []
  | behindItem, item :: rest =>
    if divides item && !behindItem then taken (!divides item) rest
    else item :: taken (!divides item) rest

/-- Whether an item that is no divider stands last, behind what the flag says. -/
def endsInItem : Bool → List α → Bool
  | behindItem, [] => behindItem
  | _, item :: rest => endsInItem (!divides item) rest

/-- Collapsing the runs behind an item takes the items behind it. -/
theorem destutter'_eq_taken (first : α) (items : List α) :
    items.destutter' (Apart divides) first = first :: taken divides (!divides first) items := by
  induction items generalizing first with
  | nil => rfl
  | cons item rest inductionHypothesis =>
    by_cases both : divides first = true ∧ divides item = true
    · rw [List.destutter'_cons_neg _ (fun apart => apart both), inductionHypothesis first]
      simp [taken, both.1, both.2]
    · rw [List.destutter'_cons_pos _ both, inductionHypothesis item, taken, if_neg]
      simpa [and_comm] using both

/-- Taking from the start of a list collapses its runs and leaves no divider in front.

Proof: collapsing keeps the first item and takes from the others. If that item is a divider it is
dropped, and what is taken behind it starts with none. -/
theorem taken_false_eq (items : List α) : taken divides false items = headed divides items := by
  have startsInItem (items : List α) :
      (taken divides false items).dropWhile divides = taken divides false items := by
    induction items with
    | nil => rfl
    | cons item rest inductionHypothesis =>
      cases divider : divides item with
      | true => simpa [taken, divider] using inductionHypothesis
      | false => simp [taken, divider]
  cases items with
  | nil => rfl
  | cons first rest =>
    rw [headed, collapsed, List.destutter_cons', destutter'_eq_taken]
    cases divider : divides first with
    | true => simpa [taken, divider] using (startsInItem rest).symm
    | false => simp [taken, divider]

/-- What is taken from two pieces. -/
theorem taken_append (behindItem : Bool) (before after : List α) :
    taken divides behindItem (before ++ after) =
      taken divides behindItem before ++
        taken divides (endsInItem divides behindItem before) after := by
  induction before generalizing behindItem with
  | nil => rfl
  | cons item rest inductionHypothesis =>
    rw [List.cons_append, taken, taken, endsInItem, inductionHypothesis]
    split <;> rfl

/-- Which item stands last in two pieces. -/
theorem endsInItem_append (behindItem : Bool) (before after : List α) :
    endsInItem divides behindItem (before ++ after) =
      endsInItem divides (endsInItem divides behindItem before) after := by
  induction before generalizing behindItem with
  | nil => rfl
  | cons item rest inductionHypothesis => exact inductionHypothesis _

/-- The last item of a list decides how it ends. -/
theorem endsInItem_of_last {items : List α} {last : α} (final : items.getLast? = some last)
    (behindItem : Bool) : endsInItem divides behindItem items = !divides last := by
  obtain ⟨before, rfl⟩ := List.getLast?_eq_some_iff.mp final
  rw [endsInItem_append, endsInItem, endsInItem]

/-- What is taken ends as the whole list does: a divider that is not taken stands behind another one
or in front of all items. -/
theorem endsInItem_taken (behindItem : Bool) (items : List α) :
    endsInItem divides behindItem (taken divides behindItem items) =
      endsInItem divides behindItem items := by
  induction items generalizing behindItem with
  | nil => rfl
  | cons item rest inductionHypothesis =>
    rw [taken, endsInItem]
    split
    · rename_i skipped
      rw [Bool.and_eq_true, Bool.not_eq_true'] at skipped
      have unchanged : behindItem = !divides item := by rw [skipped.1, skipped.2]; rfl
      rw [unchanged]
      exact inductionHypothesis _
    · exact inductionHypothesis _

/-- A piece in which no divider comes first and no two are adjacent is taken as a whole. -/
theorem taken_eq_self {items : List α} (first : ∀ item ∈ items.head?, divides item = false)
    (apart : items.IsChain (Apart divides)) (behindItem : Bool) :
    taken divides behindItem items = items := by
  cases items with
  | nil => rfl
  | cons item rest =>
    have starts : divides item = false := first item rfl
    have whole := List.destutter'_of_isChain_cons _ _ apart
    rw [destutter'_eq_taken] at whole
    simpa [taken, starts] using whole

/-- Of a run of dividers behind an item the first is taken. -/
theorem taken_dividers {items : List α} (all : ∀ item ∈ items, divides item = true) :
    taken divides true items = items.head?.toList := by
  have none (rest : List α) (dividers : ∀ item ∈ rest, divides item = true) :
      taken divides false rest = [] := by
    induction rest with
    | nil => rfl
    | cons item rest inductionHypothesis =>
      rw [List.forall_mem_cons] at dividers
      simpa [taken, dividers.1] using inductionHypothesis dividers.2
  cases items with
  | nil => rfl
  | cons item rest =>
    rw [List.forall_mem_cons] at all
    simp [taken, all.1, none rest all.2]

/-- No divider is dropped from the end in front of an item that is none. -/
theorem rdropWhile_append_of_last {items : List α} {last : α} (final : items.getLast? = some last)
    (item : divides last = false) (behind : List α) :
    (items ++ behind).rdropWhile divides = items ++ behind.rdropWhile divides := by
  induction behind using List.reverseRecOn with
  | nil =>
    have kept : items.rdropWhile divides = items := by
      obtain ⟨before, rfl⟩ := List.getLast?_eq_some_iff.mp final
      exact List.rdropWhile_concat_neg _ _ _ (by simp [item])
    simpa using kept
  | append_singleton behind next inductionHypothesis =>
    rw [← List.append_assoc, List.rdropWhile_concat, List.rdropWhile_concat]
    split
    · exact inductionHypothesis
    · rw [List.append_assoc]

/-- Two pieces that start and end with an item that is none of the dividers, and divide their items
properly, stand in the tidied list as they are, with one divider between them if there was any and
what is taken of the list before them in front.

Proof: what is taken of each piece depends on the last item in front of it alone. -/
theorem tidied_pieces {before first between second after : List α} {firstLast secondLast : α}
    (firstWhole : ∀ behindItem, taken divides behindItem first = first)
    (firstEnds : first.getLast? = some firstLast) (firstItem : divides firstLast = false)
    (dividers : ∀ item ∈ between, divides item = true)
    (secondWhole : ∀ behindItem, taken divides behindItem second = second)
    (secondEnds : second.getLast? = some secondLast) (secondItem : divides secondLast = false) :
    ∃ behind, tidied divides (before ++ first ++ between ++ second ++ after) =
      headed divides before ++ first ++ between.head?.toList ++ second ++ behind := by
  have ends : (headed divides before ++ first ++ between.head?.toList ++ second).getLast? =
      some secondLast := by
    rw [List.getLast?_append, secondEnds, Option.some_or]
  refine ⟨(taken divides true after).rdropWhile divides, ?_⟩
  rw [← taken_false_eq] at ends
  rw [tidied, ← taken_false_eq, ← taken_false_eq]
  rw [← rdropWhile_append_of_last divides ends secondItem]
  simp only [taken_append, endsInItem_append, endsInItem_of_last divides firstEnds,
    endsInItem_of_last divides secondEnds, firstItem, secondItem, firstWhole, secondWhole,
    Bool.not_false, taken_dividers divides dividers]

/-- Tidying takes dividers out of a list, and puts nothing in. -/
theorem tidied_sublist (items : List α) : (tidied divides items).Sublist items :=
  (List.rdropWhile_prefix _ _).sublist.trans
    ((List.dropWhile_sublist _).trans (List.destutter_sublist _ _))

/-- Items can be tidied by what they are mapped to. -/
theorem map_tidied (divides : β → Bool) (view : α → β) (items : List α) :
    (tidied (divides ∘ view) items).map view = tidied divides (items.map view) := by
  have runs : (collapsed (divides ∘ view) items).map view = collapsed divides (items.map view) :=
    List.map_destutter fun _ _ _ _ => Iff.rfl
  simp only [tidied, headed, ← runs, List.rdropWhile, List.dropWhile_map, ← List.map_reverse]

end Menus
