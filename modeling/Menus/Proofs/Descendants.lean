import Mathlib.Data.List.Chain
import Mathlib.Data.List.TakeWhile
import Menus.Proofs.Outline

/-!
# What is listed below a heading

Below the heading of a group stand the headings that follow it and are deeper than the menu. They are
deeper than the heading too if the heading itself is not deeper than its menu, and only the first
heading of a run may be: it opens a group whatever its depth, while every other group is opened by a
heading that could not be taken into the group in front of it.

So a heading never holds what is no descendant of it, except that the first heading of a run, when it
is deeper than the menu, holds headings beside and above it. Where depths are regular, that is, where
no heading is more than one level below the one in front, no run starts that deep.
-/

namespace Menus

namespace Contents

/-- The run does not start deeper than the menu. -/
def StartsAt (level : Int) (headings : List Heading) : Prop :=
  ∀ first ∈ headings.head?, first.depth ≤ level

/-- What is left when all deeper headings in front are taken away does not start deeper. -/
theorem startsAt_dropWhile (level : Int) (headings : List Heading) :
    StartsAt level (headings.dropWhile fun heading => level < heading.depth) := by
  intro first leads
  have stopped := List.head?_dropWhile_not (fun heading => decide (level < heading.depth)) headings
  rw [Option.mem_def.mp leads] at stopped
  simpa using stopped

/-- What is below the head of a group is deeper than the menu. -/
theorem depth_lt_of_mem_below {level : Int} {headings : List Heading} {group : Group}
    (member : group ∈ groups level headings) {heading : Heading}
    (below : heading ∈ group.below) : level < heading.depth := by
  fun_induction groups level headings with
  | case1 => exact absurd member List.not_mem_nil
  | case2 head rest inductionHypothesis =>
    rcases List.mem_cons.mp member with rfl | later
    · simpa using List.mem_takeWhile_imp below
    · exact inductionHypothesis later

/-- If the run does not start deeper than the menu, no head of a group is deeper. -/
theorem head_depth_le {level : Int} {headings : List Heading} (start : StartsAt level headings)
    {group : Group} (member : group ∈ groups level headings) : group.head.depth ≤ level := by
  fun_induction groups level headings with
  | case1 => exact absurd member List.not_mem_nil
  | case2 head rest inductionHypothesis =>
    rcases List.mem_cons.mp member with rfl | later
    · exact start head rfl
    · exact inductionHypothesis (startsAt_dropWhile level rest) later

/-- The head of a group behind another is not deeper than the menu. -/
theorem head_depth_le_of_mem_tail {level : Int} {headings : List Heading} {group : Group}
    (member : group ∈ (groups level headings).tail) : group.head.depth ≤ level := by
  cases headings with
  | nil =>
    rw [groups] at member
    exact absurd member List.not_mem_nil
  | cons head rest =>
    rw [groups, List.tail_cons] at member
    exact head_depth_le (startsAt_dropWhile level rest) member

/-- The submenu at a position of a run lists below its heading only what is deeper than the menu of
the run. The heading is not deeper itself, or it is the first of the run. -/
def Nests (run : List Item) : Prop :=
  ∀ (position : Nat) (mark : Mark) (below : List Item),
    run[position]? = some (.group mark below) →
      (∀ heading ∈ headingsOf below, mark.level < heading.depth) ∧
        (mark.heading.depth ≤ mark.level ∨ position = 0)

/-- A run without groups nests nothing. -/
theorem nests_of_forall_ne {run : List Item}
    (none : ∀ mark below, Item.group mark below ∉ run) : Nests run := by
  intro position mark below found
  exact absurd (List.mem_of_getElem? found) (none mark below)

/-- A run of commands has no groups. -/
theorem group_notMem_flatRun {level : Int} {headings : List Heading} {mark : Mark}
    {below : List Item} : Item.group mark below ∉ flatRun level headings := by
  intro member
  obtain ⟨_, _, same⟩ := List.mem_map.mp member
  cases same

/-- A run of pages has no groups. -/
theorem group_notMem_pageRun {level : Int} {headings : List Heading} {mark : Mark}
    {below : List Item} : Item.group mark below ∉ pageRun level headings := by
  intro member
  obtain ⟨_, _, same⟩ := exists_of_mem_pageRun member
  cases same

/-- The item of a group that opens a menu lists there what is below the head of the group. -/
theorem of_groupItem_eq_group {level : Int} {mark other : Mark} {group : Group} {below : List Item}
    (same : groupItem level mark group = .group other below) :
    mark = other ∧ below = outline (level + 1) group.below := by
  rw [groupItem] at same
  split at same
  · cases same
  · cases same
    exact ⟨rfl, rfl⟩

/-- The item at a position of a run of groups stands for the group there. -/
theorem exists_of_getElem?_groupRun {level : Int} {headings : List Heading} {position : Nat}
    {item : Item} (found : (groupRun level headings)[position]? = some item) :
    ∃ mark group, (groups level headings)[position]? = some group ∧ mark.heading = group.head ∧
      mark.level = level ∧ item = groupItem level mark group := by
  rw [groupRun, ← List.map_uncurry_zip_eq_zipWith, List.getElem?_map,
    Option.map_eq_some_iff] at found
  obtain ⟨⟨mark, group⟩, paired, rfl⟩ := found
  have among := List.mem_of_getElem? paired
  exact ⟨mark, group, (List.getElem?_zip_eq_some.mp paired).2, heading_of_mem_zip_marks among,
    level_of_mem_marks (List.of_mem_zip among).1, rfl⟩

/-- Groups nest what is below their heads. -/
theorem nests_groupRun (level : Int) (headings : List Heading) :
    Nests (groupRun level headings) := by
  intro position mark below found
  obtain ⟨own, group, there, headed, placed, same⟩ := exists_of_getElem?_groupRun found
  obtain ⟨rfl, rfl⟩ := of_groupItem_eq_group same.symm
  rw [headingsOf_outline, placed, headed]
  constructor
  · intro heading inside
    exact depth_lt_of_mem_below (List.mem_of_getElem? there) inside
  · cases position with
    | zero => exact .inr rfl
    | succ before =>
      rw [← List.getElem?_tail] at there
      exact .inl (head_depth_le_of_mem_tail (List.mem_of_getElem? there))

/-- Every run of an outline nests its groups. -/
theorem nests_of_within_outline {depth : Int} {headings : List Heading} {run : List Item}
    (within : Within run (outline depth headings)) : Nests run := by
  apply of_within_outline _ _ nests_groupRun within
  · intro _ _
    exact nests_of_forall_ne fun _ _ => group_notMem_flatRun
  · intro _ _
    exact nests_of_forall_ne fun _ _ => group_notMem_pageRun

/-- The headings of a range do not start deeper than its menu, and none is more than one level below
the one in front. -/
structure Regular (depth : Int) (headings : List Heading) : Prop where
  start : StartsAt (raise depth headings) headings
  steps : headings.IsChain fun heading next => next.depth ≤ heading.depth + 1

/-- A menu is not less deep than it has to be. -/
theorem le_raise (depth : Int) (headings : List Heading) : depth ≤ raise depth headings := by
  rw [raise]
  split
  · exact Int.le_max_left _ _
  · exact Int.le_refl _

/-- What is below the head of a group of regular headings is regular one level down. -/
theorem Regular.below {depth : Int} {headings : List Heading} (regular : Regular depth headings)
    {group : Group} (member : group ∈ groups (raise depth headings) headings) :
    Regular (raise depth headings + 1) group.below := by
  have steps := regular.steps.infix (headings_infix_of_mem_groups member)
  rw [Group.headings, List.isChain_cons] at steps
  obtain ⟨close, inside⟩ := steps
  constructor
  · intro first leads
    have headed := head_depth_le regular.start member
    calc
      first.depth ≤ group.head.depth + 1 := close first leads
      _ ≤ raise depth headings + 1 := by omega
      _ ≤ raise (raise depth headings + 1) group.below := le_raise _ _
  · exact inside

/-- No group of regular headings has a heading deeper than its menu. -/
theorem Regular.depth_le {depth : Int} {headings : List Heading} (regular : Regular depth headings)
    {run : List Item} (within : Within run (outline depth headings)) :
    ∀ mark below, .group mark below ∈ run → mark.heading.depth ≤ mark.level := by
  apply of_within_outline_of _ _ _ _ regular within
  · intro _ _ mark below member
    exact absurd member group_notMem_flatRun
  · intro _ _ mark below member
    exact absurd member group_notMem_pageRun
  · intro depth headings regular mark below member
    obtain ⟨position, there⟩ := List.getElem?_of_mem member
    obtain ⟨own, group, found, headed, placed, same⟩ := exists_of_getElem?_groupRun there
    obtain ⟨rfl, _⟩ := of_groupItem_eq_group same.symm
    rw [headed, placed]
    exact head_depth_le regular.start (List.mem_of_getElem? found)
  · intro depth headings regular group member
    exact regular.below member

end Contents

/-- Adding a range of headings to a menu leaves what the menu holds in front and appends the entries
of the outline of the range. In every run of the outline, so in every menu of the result, what a
submenu lists below its heading, at any level, is deeper than the menu that the submenu is in. It is
deeper than the heading too, if the heading is not deeper than this menu, and only that of the first
entry of a menu can be. None is if the headings are regular: then no heading holds what is not below
it. -/
theorem first_headings_alone_hold_others (menu : Menu) (headings : List Heading) (start stop : Nat)
    (depth : Int) :
    let outline := Contents.outline depth (headings.extract start stop)
    (menu.append (Contents.range headings start stop depth)).entries =
        menu.entries ++ Contents.entriesOf outline ∧
      (∀ run, Contents.Within run outline → ∀ (position : Nat) (mark : Contents.Mark) below,
        run[position]? = some (.group mark below) →
          (∀ heading ∈ Contents.headingsOf below, mark.level < heading.depth) ∧
            (mark.heading.depth ≤ mark.level →
              ∀ heading ∈ Contents.headingsOf below, mark.heading.depth < heading.depth) ∧
            (mark.level < mark.heading.depth → position = 0)) ∧
      (Contents.Regular depth (headings.extract start stop) →
        ∀ run, Contents.Within run outline → ∀ (mark : Contents.Mark) below,
          .group mark below ∈ run →
            ∀ heading ∈ Contents.headingsOf below, mark.heading.depth < heading.depth) := by
  refine ⟨?_, ?_, ?_⟩
  · rw [Menu.entries_append, Contents.range_eq_partition, Contents.entriesOf_outline]
  · intro run within position mark below found
    obtain ⟨deeper, first⟩ := Contents.nests_of_within_outline within position mark below found
    refine ⟨deeper, fun flat heading inside => Int.lt_of_le_of_lt flat (deeper heading inside), ?_⟩
    intro deep
    exact first.resolve_left (Int.not_le.mpr deep)
  · intro regular run within mark below member heading inside
    obtain ⟨position, found⟩ := List.getElem?_of_mem member
    obtain ⟨deeper, _⟩ := Contents.nests_of_within_outline within position mark below found
    exact Int.lt_of_le_of_lt (regular.depth_le within mark below member) (deeper heading inside)

/-- More than a page of headings that start two levels below the rest. -/
def Contents.irregular : List Heading :=
  let shown : List (Int × String) :=
    [(2, "F"), (1, "I"), (0, "C"), (1, "S")] ++ List.replicate 22 (0, "P")
  shown.mapIdx fun position (depth, text) => ⟨depth, text, .ofMenu "go" (toString position)⟩

/-- The entry holds a heading that is not deeper than its own. -/
def Contents.Item.holdsOthers : Item → Bool
  | .group mark below =>
    (headingsOf below).any fun heading => heading.depth ≤ mark.heading.depth
  | _ => false

/-- A range that starts two levels deep puts the heading that follows, one level up, into the submenu
of the first. -/
theorem deep_first_heading_holds_one_above :
    ((Contents.range Contents.irregular 0 26 0).head?.bind Entry.child?).map
        (fun child => child.entries.map Entry.label) = some ["F", "I"] ∧
      ¬ ∀ run, Contents.Within run (Contents.outline 0 (Contents.irregular.extract 0 26)) →
        ∀ mark below, .group mark below ∈ run →
          ∀ heading ∈ Contents.headingsOf below, mark.heading.depth < heading.depth := by
  refine ⟨by decide +kernel, ?_⟩
  intro nested
  have held : (Contents.outline 0 (Contents.irregular.extract 0 26)).any
      Contents.Item.holdsOthers = true := by
    decide +kernel
  obtain ⟨item, member, holds⟩ := List.any_eq_true.mp held
  cases item with
  | command mark => cases holds
  | page mark shown => cases holds
  | group mark below =>
    obtain ⟨heading, inside, above⟩ := List.any_eq_true.mp holds
    have deeper := nested _ (.self _) mark below member heading inside
    exact absurd (of_decide_eq_true above) (Int.not_le.mpr deeper)

end Menus
