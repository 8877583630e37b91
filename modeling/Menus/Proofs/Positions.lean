import Mathlib.Data.List.Infix
import Menus.Proofs.Words

/-!
# Pages and groups by their positions

`Contents.partition` takes lists of headings apart. An application keeps the headings of a document in one
list and remembers positions: a page is known by its number, and a group is found by going through the
list from its head up to the first heading that is not deeper. Both ways of dividing come to the same, as
long as the headings that are divided stand in the list from some position on.

What is found by positions lies between the positions that are gone through, whatever the depths are.
-/

namespace Menus.Contents

/-- The positions from a start up to a stop. -/
structure Stretch where
  start : Nat
  stop : Nat
deriving DecidableEq, Repr

/-- The headings at the positions of a stretch that are there. -/
def Stretch.headings (all : List Heading) (stretch : Stretch) : List Heading :=
  all.extract stretch.start stretch.stop

/-- The stretch is that of one heading. -/
def Stretch.isAlone (stretch : Stretch) : Bool := stretch.stop = stretch.start + 1

/-- The first position from `position` on, but not beyond `stop`, at which the heading is not deeper than
`level`. -/
def groupEnd (all : List Heading) (stop : Nat) (level : Int32) (position : Nat) : Nat :=
  if position < stop ∧ all[position]?.any (fun heading => decide (level < heading.word)) = true then
    groupEnd all stop level (position + 1)
  else position
termination_by stop - position

/-- A group does not end before it begins. -/
theorem le_groupEnd (all : List Heading) (stop : Nat) (level : Int32) (position : Nat) :
    position ≤ groupEnd all stop level position := by
  fun_induction groupEnd all stop level position with
  | case1 position _ inductionHypothesis => exact Nat.le_of_succ_le inductionHypothesis
  | case2 position _ => exact Nat.le_refl position

/-- The groups from `position` up to `stop`: a heading and those behind it that are deeper than
`level`. -/
def groupsFrom (all : List Heading) (stop : Nat) (level : Int32) (position : Nat) : List Stretch :=
  if position < stop then
    ⟨position, groupEnd all stop level (position + 1)⟩ ::
      groupsFrom all stop level (groupEnd all stop level (position + 1))
  else []
termination_by stop - position
decreasing_by
  have onward := le_groupEnd all stop level (position + 1)
  omega

/-- The pages of a stretch. -/
def Stretch.pages (all : List Heading) (stretch : Stretch) : List Stretch :=
  (runs pageSize (stretch.headings all)).mapIdx fun page chunk =>
    ⟨stretch.start + page * pageSize, stretch.start + page * pageSize + chunk.length⟩

/-- The headings stand in the list from this position on. -/
def StandsAt (all run : List Heading) (position : Nat) : Prop := run <+: all.drop position

namespace StandsAt

variable {all run : List Heading} {position : Nat}

/-- The first of the headings stands at the position. -/
theorem getElem? {head : Heading} {rest : List Heading} (stands : StandsAt all (head :: rest) position) :
    all[position]? = some head := by
  obtain ⟨later, split⟩ := stands
  rw [← List.head?_drop, ← split]
  rfl

/-- Headings in front of others stand where these begin. -/
theorem left {front back : List Heading} (stands : StandsAt all (front ++ back) position) :
    StandsAt all front position :=
  (List.prefix_append front back).trans stands

/-- Headings behind others stand where these end. -/
theorem right {front back : List Heading} (stands : StandsAt all (front ++ back) position) :
    StandsAt all back (position + front.length) := by
  have behind := List.IsPrefix.drop stands front.length
  rwa [List.drop_left, List.drop_drop] at behind

/-- Headings behind a first one stand at the next position. -/
theorem tail {head : Heading} {rest : List Heading} (stands : StandsAt all (head :: rest) position) :
    StandsAt all rest (position + 1) := by
  have split : head :: rest = [head] ++ rest := rfl
  rw [split] at stands
  exact stands.right

/-- Where headings stand, they are the headings of a stretch. -/
theorem headings_eq (stands : StandsAt all run position) :
    Stretch.headings all ⟨position, position + run.length⟩ = run := by
  rw [Stretch.headings, List.extract_eq_take_drop, Nat.add_sub_cancel_left]
  exact (List.prefix_iff_eq_take.mp stands).symm

end StandsAt

/-- The headings of a stretch stand at its start. -/
theorem Stretch.standsAt (all : List Heading) (stretch : Stretch) :
    StandsAt all (stretch.headings all) stretch.start := by
  rw [StandsAt, headings, List.extract_eq_take_drop]
  exact List.take_prefix _ _

/-- How many headings a stretch has. -/
theorem Stretch.length_headings (all : List Heading) (stretch : Stretch) :
    (stretch.headings all).length = min stretch.stop all.length - stretch.start := by
  rw [headings, List.extract_eq_take_drop, List.length_take, List.length_drop]
  omega

/-- The group ends behind the headings that are deeper. -/
theorem groupEnd_eq (level : Int32) {all run : List Heading} {position : Nat}
    (stands : StandsAt all run position) :
    groupEnd all (position + run.length) level position =
      position + (run.takeWhile fun heading => level < heading.word).length := by
  induction run generalizing position with
  | nil =>
    rw [groupEnd]
    simp
  | cons head rest inductionHypothesis =>
    have first := stands.getElem?
    have same : position + (head :: rest).length = position + 1 + rest.length := by
      rw [List.length_cons]
      omega
    have room : position < position + (head :: rest).length := by
      rw [List.length_cons]
      omega
    by_cases deeper : level < head.word
    · have goes : position < position + (head :: rest).length ∧
          all[position]?.any (fun heading => decide (level < heading.word)) = true := by
        refine ⟨room, ?_⟩
        rw [first]
        exact decide_eq_true deeper
      rw [groupEnd, if_pos goes, same, inductionHypothesis stands.tail,
        List.takeWhile_cons_of_pos (by simpa using deeper), List.length_cons]
      omega
    · have stops : ¬ (position < position + (head :: rest).length ∧
          all[position]?.any (fun heading => decide (level < heading.word)) = true) := by
        rintro ⟨_, goes⟩
        rw [first] at goes
        exact deeper (of_decide_eq_true goes)
      rw [groupEnd, if_neg stops, List.takeWhile_cons_of_neg (by simpa using deeper)]
      rfl

/-- The depths that fit are compared as their words are. -/
theorem splits_deeper (level : Int32) {run : List Heading} (fits : ∀ heading ∈ run, heading.Fits) :
    run.takeWhile (fun heading => level < heading.word) =
        run.takeWhile (fun heading => level.toInt < heading.depth) ∧
      run.dropWhile (fun heading => level < heading.word) =
        run.dropWhile (fun heading => level.toInt < heading.depth) := by
  induction run with
  | nil => exact ⟨rfl, rfl⟩
  | cons head rest inductionHypothesis =>
    obtain ⟨first, others⟩ := List.forall_mem_cons.mp fits
    obtain ⟨taken, left⟩ := inductionHypothesis others
    have same : level < head.word ↔ level.toInt < head.depth := by
      rw [Int32.lt_iff_toInt_lt, first.toInt_word]
    by_cases deeper : level.toInt < head.depth
    · simp [deeper, same.mpr deeper, taken, left]
    · simp [deeper, mt same.mp deeper]

/-- The stretch is that of the group: its head stands at the start, and what is below up to the stop. -/
structure Locates (all : List Heading) (stretch : Stretch) (group : Group) : Prop where
  head : all[stretch.start]? = some group.head
  below : StandsAt all group.below (stretch.start + 1)
  stop : stretch.stop = stretch.start + 1 + group.below.length

/-- The groups that are found by positions are the groups of the headings.

Proof: by induction on the groups of the headings. The first one ends behind the headings that are deeper,
and the others begin there. -/
theorem locates_groupsFrom (level : Int32) {all run : List Heading} {position : Nat}
    (fits : ∀ heading ∈ run, heading.Fits) (stands : StandsAt all run position) :
    List.Forall₂ (Locates all) (groupsFrom all (position + run.length) level position)
      (Contents.groups level.toInt run) := by
  fun_induction Contents.groups level.toInt run generalizing position with
  | case1 =>
    have nothing : ¬ position < position + ([] : List Heading).length := Nat.lt_irrefl position
    rw [groupsFrom, if_neg nothing]
    exact .nil
  | case2 head rest inductionHypothesis =>
    obtain ⟨_, others⟩ := List.forall_mem_cons.mp fits
    obtain ⟨taken, left⟩ := splits_deeper level others
    have parted := List.takeWhile_append_dropWhile
      (p := fun heading : Heading => decide (level.toInt < heading.depth)) (l := rest)
    have same : position + (head :: rest).length = position + 1 + rest.length := by
      rw [List.length_cons]
      omega
    have room : position < position + 1 + rest.length := by omega
    have ends := groupEnd_eq level stands.tail
    rw [taken] at ends
    have further := stands.tail
    rw [← parted] at further
    have counted : rest.length = (rest.takeWhile fun heading => level.toInt < heading.depth).length +
        (rest.dropWhile fun heading => level.toInt < heading.depth).length := by
      rw [← List.length_append, parted]
    rw [same, groupsFrom, if_pos room, ends]
    refine .cons ⟨stands.getElem?, further.left, rfl⟩ ?_
    have behind := inductionHypothesis
      (fun heading member => others heading ((List.dropWhile_sublist _).subset member)) further.right
    rwa [Nat.add_assoc _ _ (List.length _), ← counted] at behind

/-- A group ends up to the stop if it begins there. -/
theorem groupEnd_le (all : List Heading) {stop : Nat} (level : Int32) {position : Nat}
    (inside : position ≤ stop) : groupEnd all stop level position ≤ stop := by
  fun_induction groupEnd all stop level position with
  | case1 position goes inductionHypothesis => exact inductionHypothesis goes.1
  | case2 position _ => exact inside

/-- Groups lie between the positions they are searched between. -/
theorem inside_of_mem_groupsFrom {all : List Heading} {stop : Nat} {level : Int32} {position : Nat}
    {group : Stretch} (member : group ∈ groupsFrom all stop level position) :
    position ≤ group.start ∧ group.start < group.stop ∧ group.stop ≤ stop := by
  fun_induction groupsFrom all stop level position with
  | case1 position room inductionHypothesis =>
    have onward := le_groupEnd all stop level (position + 1)
    rcases List.mem_cons.mp member with rfl | later
    · exact ⟨Nat.le_refl position, onward, groupEnd_le all level room⟩
    · obtain ⟨behind, some, inside⟩ := inductionHypothesis later
      exact ⟨by omega, some, inside⟩
  | case2 => exact absurd member List.not_mem_nil

/-- A group of several headings has one that is deeper than the level. -/
theorem exists_deeper_of_mem_groupsFrom {all : List Heading} {stop : Nat} {level : Int32}
    {position : Nat} {group : Stretch} (member : group ∈ groupsFrom all stop level position)
    (several : group.isAlone = false) : ∃ heading ∈ all, level < heading.word := by
  fun_induction groupsFrom all stop level position with
  | case1 position _ inductionHypothesis =>
    rcases List.mem_cons.mp member with rfl | later
    · by_cases goes : position + 1 < stop ∧
          all[position + 1]?.any (fun heading => decide (level < heading.word)) = true
      · cases found : all[position + 1]? with
        | none =>
          rw [found] at goes
          cases goes.2
        | some heading =>
          rw [found] at goes
          exact ⟨heading, List.mem_of_getElem? found, of_decide_eq_true goes.2⟩
      · rw [groupEnd, if_neg goes] at several
        exact absurd rfl (of_decide_eq_false several)
    · exact inductionHypothesis later
  | case2 => exact absurd member List.not_mem_nil

/-- The page is that of these headings, between two positions. -/
structure LocatesPage (all : List Heading) (first last : Nat) (page : Stretch) (chunk : List Heading) :
    Prop where
  stands : StandsAt all chunk page.start
  stop : page.stop = page.start + chunk.length
  nonempty : chunk ≠ []
  short : chunk.length ≤ pageSize
  inside : first ≤ page.start ∧ page.stop ≤ last

/-- The page has these headings. -/
theorem LocatesPage.headings_eq {all chunk : List Heading} {first last : Nat} {page : Stretch}
    (locates : LocatesPage all first last page chunk) : page.headings all = chunk := by
  have same : page = ⟨page.start, page.start + chunk.length⟩ := by rw [← locates.stop]
  rw [same]
  exact locates.stands.headings_eq

/-- The pages that are counted by positions are the pages of the headings.

Proof: by induction on the pages of the headings. Behind a page that is not full there are none. -/
theorem locates_runs {all run : List Heading} {position : Nat} (stands : StandsAt all run position) :
    List.Forall₂ (LocatesPage all position (position + run.length))
      ((runs pageSize run).mapIdx fun page chunk =>
        ⟨position + page * pageSize, position + page * pageSize + chunk.length⟩)
      (runs pageSize run) := by
  fun_induction runs pageSize run generalizing position with
  | case1 => exact .nil
  | case2 run done inductionHypothesis =>
    have nonempty : run ≠ [] := fun empty => done (.inr empty)
    have some := List.length_pos_iff.mpr nonempty
    have room : 0 < pageSize := by decide
    rw [List.mapIdx_cons, Nat.zero_mul, Nat.add_zero]
    refine .cons ⟨(List.take_prefix pageSize run).trans stands, rfl, ?_, List.length_take_le _ _,
      Nat.le_refl position, ?_⟩ ?_
    · rw [← List.length_pos_iff, List.length_take]
      omega
    · rw [List.length_take]
      exact Nat.add_le_add_left (Nat.min_le_right _ _) position
    · have later : StandsAt all (run.drop pageSize) (position + pageSize) := by
        have behind := List.IsPrefix.drop stands pageSize
        rwa [List.drop_drop] at behind
      have onward (page : Nat) :
          position + pageSize + page * pageSize = position + (page + 1) * pageSize := by
        rw [Nat.succ_mul]
        omega
      have others := inductionHypothesis later
      simp only [onward] at others
      apply others.imp
      rintro page chunk ⟨stands, stop, nonempty, short, behind, inside⟩
      have shown := List.length_pos_iff.mpr nonempty
      rw [List.length_drop] at inside
      exact ⟨stands, stop, nonempty, short, by omega, by omega⟩

/-- The pages of a stretch are the pages of its headings. -/
theorem Stretch.locates_pages (all : List Heading) (stretch : Stretch) :
    List.Forall₂ (LocatesPage all stretch.start (stretch.start + (stretch.headings all).length))
      (stretch.pages all) (runs pageSize (stretch.headings all)) :=
  locates_runs (stretch.standsAt all)

/-- A located group is that of one heading if nothing is below its head. -/
theorem Locates.isAlone_eq {all : List Heading} {stretch : Stretch} {group : Group}
    (locates : Locates all stretch group) : stretch.isAlone = group.below.isEmpty := by
  rw [Stretch.isAlone, locates.stop]
  cases group.below <;> simp

end Menus.Contents
