import Menus.Proofs.Outline

/-!
# Accelerator hints of headings

A hint is a digit that the label of a heading has in it already. Hints count up: a menu hands out the
digit one first, a digit that does not occur in a label waits for the next heading, and after nine
hints there are no more. So the hints of a menu are the first numbers in order, and no two are alike.

The count is carried along a run of headings and along a run of groups. It is not carried along a run
of pages, where every page is labelled as the first of its menu. A page either has no hint or the
digit one, and in a menu with several pages the digit one may be handed out several times.
-/

namespace Menus

namespace Contents

namespace Mark

/-- A heading gets no hint, or the next one, if there is one left and its digit is shown. -/
theorem cases (mark : Mark) :
    (mark.usedNow = mark.used ∧ mark.hint? = none ∧ mark.label = String.ofList mark.text) ∨
      (mark.usedNow = mark.used + 1 ∧ mark.hint? = some (mark.used + 1) ∧
        mark.used < numberedEntries ∧ Text.occursIn (digit (mark.used + 1)) mark.text = true ∧
        mark.label = String.ofList (mark.text ++ '|' :: digit (mark.used + 1))) := by
  by_cases numbered : mark.heading.depth = mark.level ∧ mark.used < numberedEntries ∧
      Text.occursIn (digit (mark.used + 1)) mark.text = true
  · have labelled : Contents.label mark.level mark.used mark.heading =
        (mark.text ++ '|' :: digit (mark.used + 1), mark.used + 1) := if_pos numbered
    refine .inr ⟨?_, ?_, numbered.2.1, numbered.2.2, ?_⟩
    · rw [usedNow, labelled]
    · simp [hint?, usedNow, labelled]
    · rw [label, labelled]
  · have labelled : Contents.label mark.level mark.used mark.heading = (mark.text, mark.used) :=
      if_neg numbered
    refine .inl ⟨?_, ?_, ?_⟩
    · rw [usedNow, labelled]
    · simp [hint?, usedNow, labelled]
    · rw [label, labelled]

end Mark

/-- The hints of a run in order. -/
def hints (run : List Item) : List Nat :=
  run.filterMap fun item => item.mark.hint?

/-- The marks of a run hand out the next hints, one after the other. -/
theorem hints_marks (level : Int) {used : Nat} (room : used ≤ numberedEntries)
    (headings : List Heading) :
    ∃ count, used + count ≤ numberedEntries ∧
      (marks level used headings).filterMap Mark.hint? = List.range' (used + 1) count := by
  induction headings generalizing used with
  | nil => exact ⟨0, room, rfl⟩
  | cons heading rest inductionHypothesis =>
    rw [marks]
    rcases Mark.cases ⟨heading, level, used⟩ with ⟨kept, silent, _⟩ | ⟨counted, hinted, left, _, _⟩
    · rw [kept, List.filterMap_cons_none silent]
      exact inductionHypothesis room
    · obtain ⟨count, within, handed⟩ := inductionHypothesis (Nat.succ_le_of_lt left)
      rw [counted, List.filterMap_cons_some hinted, handed]
      exact ⟨count + 1, (Nat.succ_add_eq_add_succ used count) ▸ within, rfl⟩

/-- The hints of a run of commands are the first numbers. -/
theorem hints_flatRun (level : Int) (headings : List Heading) :
    ∃ count ≤ numberedEntries, hints (flatRun level headings) = List.range' 1 count := by
  obtain ⟨count, within, handed⟩ := hints_marks level (Nat.zero_le numberedEntries) headings
  refine ⟨count, by omega, ?_⟩
  rw [hints, flatRun, List.filterMap_map]
  exact handed

/-- The hints of a run of groups are the first numbers. -/
theorem hints_groupRun (level : Int) (headings : List Heading) :
    ∃ count ≤ numberedEntries, hints (groupRun level headings) = List.range' 1 count := by
  obtain ⟨count, within, handed⟩ := hints_marks level (Nat.zero_le numberedEntries)
    ((groups level headings).map Group.head)
  refine ⟨count, by omega, ?_⟩
  calc
    _ = ((groupRun level headings).map Item.mark).filterMap Mark.hint? := by
      rw [List.filterMap_map]
      rfl
    _ = List.range' 1 count := by rw [map_mark_groupRun, handed]

/-- Every hint in a run of pages is the digit one. -/
theorem eq_one_of_mem_hints_pageRun {level : Int} {headings : List Heading} {hint : Nat}
    (member : hint ∈ hints (pageRun level headings)) : hint = 1 := by
  obtain ⟨item, among, hinted⟩ := List.mem_filterMap.mp member
  obtain ⟨first, rest, rfl⟩ := exists_of_mem_pageRun among
  rcases Mark.cases ⟨first, level, 0⟩ with ⟨_, silent, _⟩ | ⟨_, next, _⟩
  · rw [Item.mark, silent] at hinted
    cases hinted
  · rw [Item.mark, next] at hinted
    exact (Option.some.inj hinted).symm

/-- A label is the text of the heading. Behind it stands the hint, if there is one: a number from one
to nine, whose digit occurs in the text. -/
def Item.Labelled (item : Item) : Prop :=
  (item.mark.hint? = none → item.entry.label = String.ofList item.mark.text) ∧
    ∀ hint, item.mark.hint? = some hint →
      1 ≤ hint ∧ hint ≤ 9 ∧ Text.occursIn (digit hint) item.mark.text = true ∧
        item.entry.label = String.ofList (item.mark.text ++ '|' :: digit hint)

/-- Every entry is labelled in this way. -/
theorem Item.labelled (item : Item) : item.Labelled := by
  rw [Item.Labelled, item.label_entry]
  rcases item.mark.cases with ⟨_, silent, plain⟩ | ⟨_, hinted, left, occurs, behind⟩
  · constructor
    · intro _
      exact plain
    · intro hint handed
      rw [silent] at handed
      cases handed
  · constructor
    · intro none
      rw [hinted] at none
      cases none
    · intro hint handed
      rw [hinted] at handed
      obtain rfl := Option.some.inj handed
      exact ⟨Nat.le_add_left 1 _, left, occurs, behind⟩

/-- The hints of the run are the first numbers in order, nine at most. -/
def Numbered (run : List Item) : Prop :=
  ∃ count ≤ 9, hints run = List.range' 1 count

/-- The run consists of pages, and more than one of them has a hint, which is the digit one. -/
def Restarted (run : List Item) : Prop :=
  (∀ item ∈ run, item.isPage = true) ∧ 1 < (hints run).length ∧ ∀ hint ∈ hints run, hint = 1

/-- No two hints of a numbered run are alike. -/
theorem Numbered.nodup {run : List Item} (numbered : Numbered run) : (hints run).Nodup := by
  obtain ⟨count, _, handed⟩ := numbered
  rw [handed]
  exact List.nodup_range'

/-- Two hints of a restarted run are alike. -/
theorem Restarted.not_nodup {run : List Item} (restarted : Restarted run) :
    ¬ (hints run).Nodup := by
  obtain ⟨_, several, ones⟩ := restarted
  rw [List.eq_replicate_of_mem ones, List.nodup_replicate]
  exact Nat.not_le.mpr several

/-- In a run of pages the count starts again with every page. -/
theorem numbered_or_restarted_pageRun (level : Int) (headings : List Heading) :
    Numbered (pageRun level headings) ∨ Restarted (pageRun level headings) := by
  have ones : ∀ hint ∈ hints (pageRun level headings), hint = 1 := fun hint member =>
    eq_one_of_mem_hints_pageRun member
  by_cases single : (hints (pageRun level headings)).length ≤ 1
  · left
    refine ⟨(hints (pageRun level headings)).length, by omega, ?_⟩
    rcases Nat.le_one_iff_eq_zero_or_eq_one.mp single with none | one
    · rw [none, List.length_eq_zero_iff.mp none]
      rfl
    · obtain ⟨hint, only⟩ := List.length_eq_one_iff.mp one
      rw [one, only, ones hint (by rw [only]; exact List.mem_cons_self)]
      rfl
  · right
    refine ⟨?_, Nat.lt_of_not_le single, ones⟩
    intro item member
    obtain ⟨first, rest, rfl⟩ := exists_of_mem_pageRun member
    rfl

/-- Every run of an outline is numbered, or it is a run of pages and restarted. -/
theorem numbered_or_restarted {depth : Int} {headings : List Heading} {run : List Item}
    (within : Within run (outline depth headings)) : Numbered run ∨ Restarted run := by
  apply of_within_outline _ _ _ within
  · intro level shown
    exact .inl (hints_flatRun level shown)
  · exact numbered_or_restarted_pageRun
  · intro level shown
    exact .inl (hints_groupRun level shown)

end Contents

/-- Adding a range of headings to a menu leaves what the menu holds in front and appends the entries
of the outline of the range. In every run of the outline, so in every menu of the result, a label has
a hint behind it only if the digit occurs in it, and the hints are one, two, three and so on, nine at
most, no two alike. The exception are runs of pages: each page is labelled as the first of its menu,
so where more than one has a hint, they have the digit one in common. -/
theorem hints_repeat_only_on_pages (menu : Menu) (headings : List Heading) (start stop : Nat)
    (depth : Int) :
    (menu.append (Contents.range headings start stop depth)).entries = menu.entries ++
        Contents.entriesOf (Contents.outline depth (headings.extract start stop)) ∧
      ∀ run, Contents.Within run (Contents.outline depth (headings.extract start stop)) →
        (∀ item ∈ run, item.Labelled) ∧
          (Contents.Numbered run ∧ (Contents.hints run).Nodup ∨
            Contents.Restarted run ∧ ¬ (Contents.hints run).Nodup) := by
  constructor
  · rw [Menu.entries_append, Contents.range_eq_partition, Contents.entriesOf_outline]
  · intro run within
    constructor
    · intro item _
      exact item.labelled
    · rcases Contents.numbered_or_restarted within with numbered | restarted
      · exact .inl ⟨numbered, numbered.nodup⟩
      · exact .inr ⟨restarted, restarted.not_nodup⟩

/-- More than a page of headings of one depth that all read `1`. -/
def Contents.alike : List Heading :=
  (List.range 26).map fun position => ⟨0, "1", .ofMenu "go" (toString position)⟩

/-- Headings that are all alike make two pages, and both have the digit one as their hint. -/
theorem two_pages_have_one_hint :
    (Contents.range Contents.alike 0 26 0).map Entry.label = ["1|1", "1|1"] ∧
      Contents.hints (Contents.outline 0 (Contents.alike.extract 0 26)) = [1, 1] ∧
      ¬ ∀ run, Contents.Within run (Contents.outline 0 (Contents.alike.extract 0 26)) →
        (Contents.hints run).Nodup := by
  have handed : Contents.hints (Contents.outline 0 (Contents.alike.extract 0 26)) = [1, 1] := by
    decide +kernel
  refine ⟨by decide +kernel, handed, ?_⟩
  intro distinct
  have top := distinct _ (.self _)
  rw [handed] at top
  exact absurd top (by decide)

end Menus
