import Mathlib.Data.List.Lex
import Menus.Proofs.Fragments
import Menus.Proofs.Generated
import Menus.Snapshot

/-!
# Lists of formats

Formats are offered for viewing, for updating, for exporting and for importing. Each of these lists
leaves out dummies, and all but the last leave out formats that are none of documents. What is left
is sorted by name: names are compared without regard to the case of ASCII letters, and formats of one
name keep the order in which the application reports them. Only then is the application asked about
each command.

Because sorting is stable, it makes no difference whether formats are left out before or after. The
formats that can be viewed are some of those that can be exported, so the list for viewing is what is
left of the list for exporting, in the same order.
-/

namespace Menus

/-- Items in the order of their keys. Items of one key stand in the order in which they came. -/
structure StablySorted {α κ : Type} [LinearOrder κ] (key : α → κ) (items sorted : List α) :
    Prop where
  perm : sorted.Perm items
  ordered : sorted.Pairwise fun first second => key first ≤ key second
  stable : ∀ value, sorted.filter (fun item => key item = value) =
    items.filter (fun item => key item = value)

namespace StablySorted

variable {α κ : Type} [LinearOrder κ] {key : α → κ} {items sorted other : List α}

/-- Leaving items out of a sorted list leaves the others sorted. -/
theorem filter (order : StablySorted key items sorted) (keeps : α → Bool) :
    StablySorted key (items.filter keeps) (sorted.filter keeps) where
  perm := order.perm.filter keeps
  ordered := order.ordered.filter keeps
  stable value := by rw [List.filter_comm, order.stable value, List.filter_comm]

/-- The first of some ordered items has the least key. -/
theorem key_le_of_mem {first item : α} {rest : List α}
    (ordered : (first :: rest).Pairwise fun first second => key first ≤ key second)
    (member : item ∈ first :: rest) : key first ≤ key item := by
  rcases List.mem_cons.mp member with rfl | later
  · exact le_rfl
  · exact (List.pairwise_cons.mp ordered).1 item later

/-- There is one way to sort items stably.

Proof: by induction on one of the sorted lists. The first items of both have the least key of all, so
the same key, and both are the first item of that key. -/
theorem unique (order : StablySorted key items sorted) (again : StablySorted key items other) :
    sorted = other := by
  induction sorted generalizing items other with
  | nil => exact (again.perm.trans order.perm.symm).eq_nil.symm
  | cons first rest inductionHypothesis =>
    have same := order.perm.trans again.perm.symm
    obtain ⟨second, others, rfl⟩ : ∃ second others, other = second :: others :=
      List.exists_cons_of_ne_nil fun empty => by simp [empty] at same
    have keys : key first = key second := by
      apply le_antisymm
      · exact key_le_of_mem order.ordered (same.mem_iff.mpr List.mem_cons_self)
      · exact key_le_of_mem again.ordered (same.mem_iff.mp List.mem_cons_self)
    have filtered : ∀ value, (first :: rest).filter (fun item => key item = value) =
        (second :: others).filter (fun item => key item = value) := fun value =>
      (order.stable value).trans (again.stable value).symm
    have heads : first = second := by
      have atKey := filtered (key first)
      rw [List.filter_cons_of_pos (by simp), List.filter_cons_of_pos (by simp [keys])] at atKey
      exact (List.cons.inj atKey).1
    subst heads
    have behind : StablySorted key others rest := by
      refine ⟨same.cons_inv, order.ordered.of_cons, ?_⟩
      intro value
      have atValue := filtered value
      by_cases here : key first = value
      · rw [List.filter_cons_of_pos (by simpa), List.filter_cons_of_pos (by simpa)] at atValue
        exact (List.cons.inj atValue).2
      · rwa [List.filter_cons_of_neg (by simpa), List.filter_cons_of_neg (by simpa)] at atValue
    rw [inductionHypothesis behind ⟨.refl others, again.ordered.of_cons, fun _ => rfl⟩]

/-- Merge sort sorts stably. -/
theorem mergeSort (key : α → κ) (items : List α) :
    StablySorted key items (items.mergeSort fun first second => key first ≤ key second) := by
  have trans : ∀ first second third : α, decide (key first ≤ key second) = true →
      decide (key second ≤ key third) = true → decide (key first ≤ key third) = true := by
    simpa using fun first second third => le_trans
  have total : ∀ first second : α,
      (decide (key first ≤ key second) || decide (key second ≤ key first)) = true := by
    simpa using fun first second => le_total (key first) (key second)
  refine ⟨List.mergeSort_perm items _, by simpa using List.pairwise_mergeSort trans total items, ?_⟩
  intro value
  -- Items of one key are in order as they came, so sorting keeps their order; and none is lost.
  have alike : (items.filter fun item => key item = value).Pairwise fun first second =>
      decide (key first ≤ key second) = true := by
    rw [List.pairwise_filter]
    exact List.pairwise_of_forall fun first second one two => by simp_all
  have kept := (List.sublist_mergeSort trans total alike List.filter_sublist).filter
    fun item => key item = value
  simp only [List.filter_filter, Bool.and_self] at kept
  exact (kept.eq_of_length ((List.mergeSort_perm items _).filter _).length_eq.symm).symm

end StablySorted

namespace FormatUse

/-- What a command asks for that uses a format. -/
def request (purpose : FormatUse) (format : Format) : Request :=
  .ofMenu purpose.action format.name

variable (context : Context)

end FormatUse

end Menus
