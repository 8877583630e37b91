import Mathlib.Data.List.Basic
import Menus.Proofs.Division

/-!
# Depths in words of 32 bits

The depths of headings are integers here, and no computation with them can go wrong. An application keeps
them in words of 32 bits, where a sum or a difference may not fit. Three things are computed with depths:
the least of them, how far a heading is indented, and, in another module, the depth one level down. The
first takes no arithmetic. The second takes a difference that is held at the ends of what a word can be,
and is then raised to zero. Neither shows: a difference that does not fit stands for more blanks than a
label has room for, and so does the largest word.
-/

namespace Menus

namespace Heading

/-- The depth of the heading is a word of 32 bits. -/
def Fits (heading : Heading) : Prop :=
  Int32.minValue.toInt ≤ heading.depth ∧ heading.depth ≤ Int32.maxValue.toInt

instance (heading : Heading) : Decidable heading.Fits := inferInstanceAs (Decidable (_ ∧ _))

/-- The depth of the heading as a word. -/
def word (heading : Heading) : Int32 := .ofInt heading.depth

/-- A depth that fits is what its word stands for. -/
theorem Fits.toInt_word {heading : Heading} (fits : heading.Fits) :
    heading.word.toInt = heading.depth := by
  obtain ⟨least, most⟩ := fits
  rw [Int32.toInt_minValue] at least
  rw [Int32.toInt_maxValue] at most
  exact Int32.toInt_ofInt_of_le least (by omega)

end Heading

namespace Contents

/-- The larger of two words stands for the larger of two numbers. -/
theorem toInt_max (first second : Int32) :
    (max first second).toInt = max first.toInt second.toInt := by
  have larger : max first second = if first ≤ second then second else first := rfl
  rw [larger]
  split
  · rename_i order
    rw [Int.max_eq_right (Int32.le_iff_toInt_le.mp order)]
  · rename_i order
    have behind := Int32.le_iff_toInt_le.not.mp order
    omega

/-- A word that is less than another has a next one. -/
theorem toInt_succ {level deeper : Int32} (less : level < deeper) :
    level.toInt < Int32.maxValue.toInt ∧ (level + 1).toInt = level.toInt + 1 := by
  have order := Int32.lt_iff_toInt_lt.mp less
  have most := deeper.toInt_le
  have least := level.le_toInt
  refine ⟨by omega, ?_⟩
  rw [Int32.toInt_maxValue] at most
  rw [Int32.toInt_add, Int32.toInt_one, Int.bmod_eq_of_le (by omega) (by omega)]

/-- The difference of two words, held at the ends of what a word can be. -/
def saturatingSub (first second : Int32) : Int32 := .ofIntClamp (first.toInt - second.toInt)

/-- What the difference stands for. -/
theorem toInt_saturatingSub (first second : Int32) :
    (saturatingSub first second).toInt =
      max Int32.minValue.toInt (min Int32.maxValue.toInt (first.toInt - second.toInt)) := by
  rw [saturatingSub, Int32.ofIntClamp]
  split
  · split
    · rw [Int32.toInt_ofIntLE]
      omega
    · rw [Int32.toInt_maxValue, Int32.toInt_minValue] at *
      omega
  · rw [Int32.toInt_maxValue, Int32.toInt_minValue] at *
    omega

/-- The difference from which the indentation of a heading is computed: how far it is below the level of
its menu, and zero where it is above. -/
def steps (level : Int32) (heading : Heading) : Int32 := max (saturatingSub heading.word level) 0

/-- The difference is not negative, and it is the exact one wherever that fits a word. -/
theorem toInt_steps (level : Int32) {heading : Heading} (fits : heading.Fits) :
    (steps level heading).toInt =
      max 0 (min Int32.maxValue.toInt (heading.depth - level.toInt)) := by
  rw [steps, toInt_max, toInt_saturatingSub, fits.toInt_word, Int32.toInt_maxValue,
    Int32.toInt_minValue, Int32.toInt_zero]
  omega

/-- The text of a heading behind four blanks for each step. -/
def indentedWord (level : Int32) (heading : Heading) : List Char :=
  List.replicate (4 * (steps level heading).toNatClampNeg) ' ' ++ heading.text.toList

/-- What stands behind more blanks than there is room for does not show. -/
theorem elideEnd_replicate {limit first second : Nat} (wide : limit < first) (further : limit < second)
    (text : List Char) :
    Text.elideEnd limit (List.replicate first ' ' ++ text) =
      Text.elideEnd limit (List.replicate second ' ' ++ text) := by
  have kept {count : Nat} (beyond : limit < count) :
      Text.elideEnd limit (List.replicate count ' ' ++ text) =
        List.replicate (limit - Text.ellipsis.length) ' ' ++ Text.ellipsis := by
    have long : ¬ (List.replicate count ' ' ++ text).length ≤ limit := by
      rw [List.length_append, List.length_replicate]
      omega
    have inside : limit - Text.ellipsis.length ≤ (List.replicate count ' ').length := by
      rw [List.length_replicate]
      omega
    rw [Text.elideEnd, if_neg long, List.take_append_of_le_length inside, List.take_replicate]
    congr 2
    omega
  rw [kept wide, kept further]

/-- Computed with words, a heading is shown in the same way. -/
theorem elideEnd_indentedWord (level : Int32) {heading : Heading} (fits : heading.Fits) :
    Text.elideEnd labelLimit (indentedWord level heading) =
      Text.elideEnd labelLimit (indented level.toInt heading) := by
  have count : (steps level heading).toNatClampNeg =
      min (2 ^ 31 - 1) (heading.depth - level.toInt).toNat := by
    rw [← Int32.toNat_toInt, toInt_steps level fits, Int32.toInt_maxValue]
    omega
  rw [indentedWord, indented, count]
  by_cases room : 4 * (heading.depth - level.toInt).toNat ≤ labelLimit
  · have plain : min (2 ^ 31 - 1) (heading.depth - level.toInt).toNat =
        (heading.depth - level.toInt).toNat := by
      rw [labelLimit] at room
      omega
    have short : min (4 * (heading.depth - level.toInt).toNat) (labelLimit + 1) =
        4 * (heading.depth - level.toInt).toNat := by
      omega
    rw [plain, short]
  · apply elideEnd_replicate
    · rw [labelLimit] at *
      omega
    · omega

/-- The label of a heading, computed with words. -/
def labelWord (level : Int32) (used : Nat) (heading : Heading) : List Char × Nat :=
  let shown := Text.elideEnd labelLimit (indentedWord level heading)
  if heading.word = level ∧ used < numberedEntries ∧ Text.occursIn (digit (used + 1)) shown then
    (shown ++ '|' :: digit (used + 1), used + 1)
  else (shown, used)

/-- Computed with words, a label is the same. -/
theorem labelWord_eq (level : Int32) (used : Nat) {heading : Heading} (fits : heading.Fits) :
    labelWord level used heading = label level.toInt used heading := by
  have same : heading.word = level ↔ heading.depth = level.toInt := by
    rw [← Int32.toInt_inj, fits.toInt_word]
  simp only [labelWord, label, elideEnd_indentedWord level fits, same]

/-- The labels of a run of headings, computed with words. -/
def labelWords (level : Int32) : Nat → List Heading → List String
  | _, [] => []
  | used, heading :: rest =>
    let (shown, usedNow) := labelWord level used heading
    String.ofList shown :: labelWords level usedNow rest

/-- Computed with words, the labels of a run are the same. -/
theorem labelWords_eq (level : Int32) (used : Nat) {headings : List Heading}
    (fits : ∀ heading ∈ headings, heading.Fits) :
    labelWords level used headings = labels level.toInt used headings := by
  induction headings generalizing used with
  | nil => rfl
  | cons heading rest inductionHypothesis =>
    obtain ⟨first, others⟩ := List.forall_mem_cons.mp fits
    rw [labelWords, labels, labelWord_eq level used first]
    exact congrArg _ (inductionHypothesis _ others)

/-- The least depth of a list of headings, but not less than `depth`, all of them words. -/
def raiseWord (depth : Int32) (headings : List Heading) : Int32 :=
  match (headings.map Heading.word).min? with
  | some least => max depth least
  | none => depth

/-- The least word stands for the least depth. -/
theorem min?_depths {headings : List Heading} (fits : ∀ heading ∈ headings, heading.Fits) :
    (headings.map Heading.depth).min? = (headings.map Heading.word).min?.map Int32.toInt := by
  cases least : (headings.map Heading.word).min? with
  | none =>
    rw [List.min?_eq_none_iff, List.map_eq_nil_iff] at least
    rw [least]
    rfl
  | some word =>
    obtain ⟨member, below⟩ := List.min?_eq_some_iff.mp least
    rw [Option.map_some, List.min?_eq_some_iff]
    constructor
    · obtain ⟨heading, among, rfl⟩ := List.mem_map.mp member
      rw [(fits heading among).toInt_word]
      exact List.mem_map_of_mem among
    · intro depth among
      obtain ⟨heading, inside, rfl⟩ := List.mem_map.mp among
      rw [← (fits heading inside).toInt_word]
      exact Int32.le_iff_toInt_le.mp (below _ (List.mem_map_of_mem inside))

/-- Computed with words, the depth of a menu is the same. -/
theorem toInt_raiseWord (depth : Int32) {headings : List Heading}
    (fits : ∀ heading ∈ headings, heading.Fits) :
    (raiseWord depth headings).toInt = raise depth.toInt headings := by
  rw [raiseWord, raise, min?_depths fits]
  cases (headings.map Heading.word).min? with
  | none => rfl
  | some least => exact toInt_max depth least

end Contents

end Menus
