import Mathlib.Data.List.Lex
import Mathlib.Data.String.Basic
import Menus.Loading

/-!
# The fragments of a directory

The definitions in a directory are the files below it, at any depth, whose names end in `.ui`. They
are read in the order of their paths, name by name, and names are compared by their characters. This
is the lexicographic order on lists of texts.
-/

namespace Menus

/-- Texts are in the lexicographic order of their characters. -/
theorem Text.precedes_iff_lt (first second : List Char) :
    Text.precedes first second = true ↔ first < second := by
  induction first generalizing second with
  | nil => cases second <;> simp [Text.precedes]
  | cons c first inductionHypothesis =>
    cases second with
    | nil => simp [Text.precedes]
    | cons d second =>
      rw [Text.precedes, List.cons_lt_cons_iff]
      by_cases same : c = d
      · simp [same, inductionHypothesis]
      · have smaller : c.toNat < d.toNat ↔ c < d := UInt32.lt_iff_toNat_lt.symm
        rw [if_neg same, decide_eq_true_eq, smaller]
        exact (or_iff_left fun equal => same equal.1).symm

/-- Locations are in the lexicographic order of their names. -/
theorem Location.precedes_iff_lt (first second : Location) :
    Location.precedes first second = true ↔ first < second := by
  induction first generalizing second with
  | nil => cases second <;> simp [Location.precedes]
  | cons name first inductionHypothesis =>
    cases second with
    | nil => simp [Location.precedes]
    | cons other second =>
      rw [Location.precedes, List.cons_lt_cons_iff]
      by_cases same : name = other
      · simp [same, inductionHypothesis]
      · rw [if_neg same, Text.precedes_iff_lt, ← String.lt_iff_toList_lt]
        exact (or_iff_left fun equal => same equal.1).symm

namespace FileSystem

variable {system : FileSystem} {root : Location}

/-- The fragments of a directory are listed in the order of their paths. -/
theorem pairwise_fragments (system : FileSystem) (root : Location) :
    (system.fragments root).Pairwise (· ≤ ·) := by
  have inOrder (locations : List Location) :
      (locations.mergeSort fun first second => !Location.precedes second first).Pairwise
        (· ≤ ·) := by
    have le_iff (first second : Location) :
        (!Location.precedes second first) = true ↔ first ≤ second := by
      rw [Bool.not_eq_true', ← Bool.not_eq_true, Location.precedes_iff_lt, not_lt]
    refine (List.pairwise_mergeSort ?_ ?_ locations).imp (le_iff _ _).mp
    · intro first second third
      simpa only [le_iff] using le_trans
    · intro first second
      simpa only [Bool.or_eq_true, le_iff] using le_total first second
  rw [fragments]
  split
  · refine List.Pairwise.filter _ ?_
    rw [filesBelow]
    split
    · exact .nil
    · exact inOrder _
  · exact .nil

end FileSystem

end Menus
