/-!
# Runs of equal length

Headings are divided into pages and contents into blocks: runs of one length in order, of which only
the last may be shorter.
-/

namespace Menus

/-- Divides a list into runs of `size`. The empty list has none, and neither has any list when the
size is zero. -/
def runs {α : Type} (size : Nat) (list : List α) : List (List α) :=
  if _done : size = 0 ∨ list = [] then []
  else list.take size :: runs size (list.drop size)
termination_by list.length
decreasing_by
  have nonempty := List.length_pos_iff.mpr fun empty => _done (.inr empty)
  simp only [List.length_drop]
  omega

/-- Dividing loses nothing and keeps the order. -/
theorem flatten_runs {α : Type} (size : Nat) (list : List α) (positive : 0 < size) :
    (runs size list).flatten = list := by
  fun_induction runs size list with
  | case1 list done =>
    rcases done with zero | empty
    · omega
    · simp [empty]
  | case2 list _ inductionHypothesis =>
    rw [List.flatten_cons, inductionHypothesis, List.take_append_drop]

end Menus
