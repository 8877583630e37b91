import Menus.Proofs.Division

/-!
# Outlines of menus of contents

A menu of contents shows labels and requests. Which heading an entry is for, how deep its menu is,
and which digit of a label is a hint and which the text of a heading cannot be told from it. An
outline keeps what is lost: it is the tree that `Contents.partition` builds with the origin of each
entry still on it, and the entries of the outline are those of the partition.

A run is what one menu shows of the contents: the run on top, the run below the heading of a group,
the run of a page. There are three kinds of runs, one for each way of dividing headings, and what is
to hold of every menu is proved for the three of them.
-/

namespace Menus.Contents

/-- A heading in a run: the depth of the menu, and how many hints had been handed out before. -/
structure Mark where
  heading : Heading
  level : Int
  used : Nat

namespace Mark

/-- The heading as it is shown, indented and elided, without a hint. -/
def text (mark : Mark) : List Char :=
  Text.elideEnd labelLimit (indented mark.level mark.heading)

/-- The label of the entry. -/
def label (mark : Mark) : String :=
  String.ofList (Contents.label mark.level mark.used mark.heading).1

/-- How many hints have been handed out afterwards. -/
def usedNow (mark : Mark) : Nat :=
  (Contents.label mark.level mark.used mark.heading).2

/-- The hint that was put behind the label, if one was handed out. -/
def hint? (mark : Mark) : Option Nat :=
  if mark.usedNow = mark.used then none else some mark.usedNow

end Mark

/-- The marks of a run of headings, the hints handed out in order. -/
def marks (level : Int) : Nat → List Heading → List Mark
  | _, [] => []
  | used, heading :: rest =>
    let mark : Mark := ⟨heading, level, used⟩
    mark :: marks level mark.usedNow rest

/-- The labels of a run are those of its marks. -/
theorem map_label_marks (level : Int) (used : Nat) (headings : List Heading) :
    (marks level used headings).map Mark.label = labels level used headings := by
  induction headings generalizing used with
  | nil => rfl
  | cons heading rest inductionHypothesis =>
    rw [marks, labels, List.map_cons, inductionHypothesis]
    rfl

/-- The marks of a run are on its headings. -/
@[simp] theorem map_heading_marks (level : Int) (used : Nat) (headings : List Heading) :
    (marks level used headings).map Mark.heading = headings := by
  induction headings generalizing used with
  | nil => rfl
  | cons heading rest inductionHypothesis => rw [marks, List.map_cons, inductionHypothesis]

/-- There is a mark for each heading. -/
@[simp] theorem length_marks (level : Int) (used : Nat) (headings : List Heading) :
    (marks level used headings).length = headings.length := by
  rw [← List.length_map Mark.heading, map_heading_marks]

/-- The marks of a run are of its level. -/
theorem level_of_mem_marks {level : Int} {used : Nat} {headings : List Heading} {mark : Mark}
    (member : mark ∈ marks level used headings) : mark.level = level := by
  induction headings generalizing used with
  | nil => exact absurd member List.not_mem_nil
  | cons heading rest inductionHypothesis =>
    rcases List.mem_cons.mp member with rfl | later
    · rfl
    · exact inductionHypothesis later

/-- Marks on the heads of groups stand beside these groups. -/
theorem heading_of_mem_zip_marks {level : Int} {used : Nat} {divided : List Group} {mark : Mark}
    {group : Group} (paired : (mark, group) ∈ (marks level used (divided.map Group.head)).zip divided) :
    mark.heading = group.head := by
  induction divided generalizing used with
  | nil => exact absurd paired (by simp)
  | cons first rest inductionHypothesis =>
    rw [List.map_cons, marks, List.zip_cons_cons] at paired
    rcases List.mem_cons.mp paired with same | later
    · obtain ⟨rfl, rfl⟩ := Prod.mk.inj same
      rfl
    · exact inductionHypothesis later

/-- An entry of a menu of contents: a command, the submenu of a group with the run below its heading,
or the submenu of a page, which is marked with its first heading. -/
inductive Item where
  | command (mark : Mark)
  | group (mark : Mark) (below : List Item)
  | page (mark : Mark) (shown : List Item)

namespace Item

/-- The mark of the entry. -/
def mark : Item → Mark
  | .command mark => mark
  | .group mark _ => mark
  | .page mark _ => mark

/-- The run that the entry opens. -/
def run : Item → List Item
  | .command _ => []
  | .group _ below => below
  | .page _ shown => shown

/-- The item is a page. -/
def isPage : Item → Bool
  | .page _ _ => true
  | _ => false

end Item

mutual

/-- The entry itself. -/
def Item.entry : Item → Entry Menu
  | .command mark => command mark.label mark.heading
  | .group mark below => submenu mark.label (opening mark.heading :: entriesOf below)
  | .page mark shown => submenu mark.label (entriesOf shown)

/-- The entries of a run. -/
def entriesOf : List Item → List (Entry Menu)
  | [] => []
  | item :: rest => item.entry :: entriesOf rest

end

mutual

/-- The headings of an entry in order. That of a page is the first of those it shows. -/
def Item.headings : Item → List Heading
  | .command mark => [mark.heading]
  | .group mark below => mark.heading :: headingsOf below
  | .page _ shown => headingsOf shown

/-- The headings of a run in order. -/
def headingsOf : List Item → List Heading
  | [] => []
  | item :: rest => item.headings ++ headingsOf rest

end

/-- The label of an entry is that of its mark. -/
theorem Item.label_entry (item : Item) : item.entry.label = item.mark.label := by
  cases item <;> rfl

/-- The entries of a run are those of its items. -/
theorem entriesOf_eq_map (items : List Item) : entriesOf items = items.map Item.entry := by
  induction items with
  | nil => rfl
  | cons item rest inductionHypothesis => rw [entriesOf, inductionHypothesis, List.map_cons]

/-- The headings of a run are those of its items. -/
theorem headingsOf_eq_flatMap (items : List Item) :
    headingsOf items = items.flatMap Item.headings := by
  induction items with
  | nil => rfl
  | cons item rest inductionHypothesis => rw [headingsOf, inductionHypothesis, List.flatMap_cons]

/-- A run of commands. -/
def flatRun (level : Int) (headings : List Heading) : List Item :=
  (marks level 0 headings).map .command

/-- A page that shows the headings. A page without headings is none. -/
def pageItem? (level : Int) : List Heading → Option Item
  | [] => none
  | first :: rest =>
    some (.page ⟨first, level, 0⟩ (flatRun (raise level (first :: rest)) (first :: rest)))

/-- A run of pages. -/
def pageRun (level : Int) (headings : List Heading) : List Item :=
  (runs pageSize headings).filterMap (pageItem? level)

/-- The outline of the headings in a menu whose depth is at least `depth`. -/
def outline (depth : Int) (headings : List Heading) : List Item :=
  let level := raise depth headings
  if headings.length ≤ pageSize then flatRun level headings
  else
    let divided := groups level headings
    if divided.all fun group => group.below.isEmpty then pageRun level headings
    else
      List.zipWith
        (fun mark (group : { group // group ∈ groups level headings }) =>
          if group.val.below.isEmpty then .command mark
          else .group mark (outline (level + 1) group.val.below))
        (marks level 0 (divided.map Group.head)) divided.attach
termination_by headings.length
decreasing_by exact length_below_lt _ _ _ group.property

/-- The item of a group in a menu of the given level. -/
def groupItem (level : Int) (mark : Mark) (group : Group) : Item :=
  if group.below.isEmpty then .command mark else .group mark (outline (level + 1) group.below)

/-- A run of groups. -/
def groupRun (level : Int) (headings : List Heading) : List Item :=
  List.zipWith (groupItem level) (marks level 0 ((groups level headings).map Group.head))
    (groups level headings)

/-- The item of a group has the mark it is given. -/
@[simp] theorem mark_groupItem (level : Int) (mark : Mark) (group : Group) :
    (groupItem level mark group).mark = mark := by
  rw [groupItem]
  split <;> rfl

/-- The items of a run of groups have the marks on the heads of the groups. -/
theorem map_mark_groupRun (level : Int) (headings : List Heading) :
    (groupRun level headings).map Item.mark =
      marks level 0 ((groups level headings).map Group.head) := by
  have beside : (marks level 0 ((groups level headings).map Group.head)).length ≤
      (groups level headings).length := by simp
  rw [groupRun, ← List.map_uncurry_zip_eq_zipWith, List.map_map]
  calc
    _ = ((marks level 0 ((groups level headings).map Group.head)).zip
          (groups level headings)).map Prod.fst :=
      List.map_congr_left fun paired _ => mark_groupItem level paired.1 paired.2
    _ = _ := List.map_fst_zip beside

/-- The entries of a run of commands are those of a flat run. -/
theorem entriesOf_flatRun (level : Int) (headings : List Heading) :
    entriesOf (flatRun level headings) = flat level headings := by
  have shown (used : Nat) : ((marks level used headings).map Item.command).map Item.entry =
      List.zipWith command (labels level used headings) headings := by
    induction headings generalizing used with
    | nil => rfl
    | cons heading rest inductionHypothesis =>
      rw [marks, labels, List.map_cons, List.map_cons, List.zipWith_cons_cons, inductionHypothesis]
      rfl
  rw [entriesOf_eq_map, flatRun, shown, flat]

/-- The headings of a run of commands are those it is made of. -/
theorem headingsOf_flatRun (level : Int) (headings : List Heading) :
    headingsOf (flatRun level headings) = headings := by
  calc
    _ = (marks level 0 headings).flatMap fun mark => [mark.heading] := by
      rw [headingsOf_eq_flatMap, flatRun, List.flatMap_map]
      rfl
    _ = headings := by rw [← List.map_eq_flatMap, map_heading_marks]

/-- The entry of a page is the page. -/
theorem map_entry_pageItem? (level : Int) {headings : List Heading} (nonempty : headings ≠ []) :
    (pageItem? level headings).map Item.entry = some (page level headings) := by
  cases headings with
  | nil => exact absurd rfl nonempty
  | cons first rest =>
    rw [pageItem?, Option.map_some, Item.entry, entriesOf_flatRun]
    rfl

/-- The entries of a run of pages are the pages. -/
theorem entriesOf_pageRun (level : Int) (headings : List Heading) :
    entriesOf (pageRun level headings) = (runs pageSize headings).map (page level) := by
  have paged (chunks : List (List Heading)) (nonempty : ∀ chunk ∈ chunks, chunk ≠ []) :
      (chunks.filterMap (pageItem? level)).map Item.entry = chunks.map (page level) := by
    rw [List.map_filterMap, ← List.filterMap_eq_map]
    exact List.filterMap_congr fun chunk member => map_entry_pageItem? level (nonempty chunk member)
  rw [entriesOf_eq_map, pageRun, paged _ fun chunk member => ne_nil_of_mem_runs (by decide) member]

/-- The headings of a run of pages are those it is made of. -/
theorem headingsOf_pageRun (level : Int) (headings : List Heading) :
    headingsOf (pageRun level headings) = headings := by
  have paged (chunks : List (List Heading)) :
      headingsOf (chunks.filterMap (pageItem? level)) = chunks.flatten := by
    induction chunks with
    | nil => rfl
    | cons chunk rest inductionHypothesis =>
      cases chunk with
      | nil => exact inductionHypothesis
      | cons first others =>
        rw [List.filterMap_cons_some (by rw [pageItem?]), headingsOf, Item.headings,
          headingsOf_flatRun, inductionHypothesis, List.flatten_cons]
  rw [pageRun, paged, flatten_runs pageSize headings (by decide)]

/-- Up to a page of headings is a run of commands. -/
theorem outline_of_length_le (depth : Int) {headings : List Heading}
    (short : headings.length ≤ pageSize) :
    outline depth headings = flatRun (raise depth headings) headings := by
  rw [outline]
  exact if_pos short

/-- More headings are a run of pages if each group has one member only. -/
theorem outline_of_alone (depth : Int) {headings : List Heading}
    (long : pageSize < headings.length)
    (alone : ∀ group ∈ groups (raise depth headings) headings, group.below = []) :
    outline depth headings = pageRun (raise depth headings) headings := by
  rw [outline]
  simp only [Nat.not_le.mpr long, if_false]
  exact if_pos (List.all_eq_true.mpr fun group member => by simp [alone group member])

/-- More headings are a run of groups if one of the groups has several members. -/
theorem outline_of_group (depth : Int) {headings : List Heading}
    (long : pageSize < headings.length) {group : Group}
    (member : group ∈ groups (raise depth headings) headings) (several : group.below ≠ []) :
    outline depth headings = groupRun (raise depth headings) headings := by
  have grouped : ¬((groups (raise depth headings) headings).all fun group =>
      group.below.isEmpty) = true := by
    intro alone
    exact several (List.isEmpty_iff.mp (List.all_eq_true.mp alone group member))
  rw [outline, groupRun]
  simp only [Nat.not_le.mpr long, grouped, if_false]
  generalize marks (raise depth headings) 0
    ((groups (raise depth headings) headings).map Group.head) = marked
  calc
    _ = List.zipWith (groupItem (raise depth headings)) marked
          ((groups (raise depth headings) headings).attach.map Subtype.val) :=
      List.zipWith_map_right.symm
    _ = _ := by rw [List.attach_map_subtype_val]

/-- The three ways to divide headings, and the run that each makes. -/
theorem outline_cases (depth : Int) (headings : List Heading) :
    (headings.length ≤ pageSize ∧
        outline depth headings = flatRun (raise depth headings) headings) ∨
      (pageSize < headings.length ∧
        (∀ group ∈ groups (raise depth headings) headings, group.below = []) ∧
        outline depth headings = pageRun (raise depth headings) headings) ∨
      (pageSize < headings.length ∧
        (∃ group ∈ groups (raise depth headings) headings, group.below ≠ []) ∧
        outline depth headings = groupRun (raise depth headings) headings) := by
  by_cases short : headings.length ≤ pageSize
  · exact .inl ⟨short, outline_of_length_le depth short⟩
  · have long := Nat.lt_of_not_le short
    by_cases alone : ∀ group ∈ groups (raise depth headings) headings, group.below = []
    · exact .inr (.inl ⟨long, alone, outline_of_alone depth long alone⟩)
    · obtain ⟨group, member, several⟩ : ∃ group ∈ groups (raise depth headings) headings,
          group.below ≠ [] := by
        simpa using alone
      exact .inr (.inr ⟨long, ⟨group, member, several⟩, outline_of_group depth long member several⟩)

/-- The entries of the outline are those of the partition.

Proof: by induction on the number of headings. Commands and pages are flat, and below the heading of
a group there are fewer headings than in all groups. -/
theorem entriesOf_outline (depth : Int) (headings : List Heading) :
    entriesOf (outline depth headings) = partition depth headings := by
  induction size : headings.length using Nat.strongRecOn generalizing depth headings with
  | ind size inductionHypothesis =>
    subst size
    rcases outline_cases depth headings with
      ⟨short, made⟩ | ⟨long, alone, made⟩ | ⟨long, ⟨group, member, several⟩, made⟩
    · rw [made, entriesOf_flatRun, partition_of_length_le depth short]
    · rw [made, entriesOf_pageRun, partition_of_alone depth long alone]
    · rw [made, groupRun, partition_of_group depth long member several, entriesOf_eq_map,
        List.map_zipWith, ← map_label_marks, List.zipWith_map_left,
        ← List.map_uncurry_zip_eq_zipWith, ← List.map_uncurry_zip_eq_zipWith]
      apply List.map_congr_left
      rintro ⟨mark, part⟩ paired
      have headed := heading_of_mem_zip_marks paired
      have fewer := length_below_lt _ _ part (List.of_mem_zip paired).2
      simp only [Function.uncurry_apply_pair, groupItem, groupEntry]
      split
      · rw [Item.entry, headed]
      · rw [Item.entry, inductionHypothesis _ fewer _ part.below rfl, headed]

/-- The headings of an outline are the headings it is made of, each once and in order. -/
theorem headingsOf_outline (depth : Int) (headings : List Heading) :
    headingsOf (outline depth headings) = headings := by
  induction size : headings.length using Nat.strongRecOn generalizing depth headings with
  | ind size inductionHypothesis =>
    subst size
    rcases outline_cases depth headings with ⟨_, made⟩ | ⟨_, _, made⟩ | ⟨_, _, made⟩
    · rw [made, headingsOf_flatRun]
    · rw [made, headingsOf_pageRun]
    · rw [made, headingsOf_eq_flatMap, groupRun, ← List.map_uncurry_zip_eq_zipWith,
        List.flatMap_map]
      have grouped : ∀ paired ∈ (marks (raise depth headings) 0
          ((groups (raise depth headings) headings).map Group.head)).zip
            (groups (raise depth headings) headings),
          (Function.uncurry (groupItem (raise depth headings)) paired).headings =
            paired.2.headings := by
        rintro ⟨mark, part⟩ paired
        have headed := heading_of_mem_zip_marks paired
        have fewer := length_below_lt _ _ part (List.of_mem_zip paired).2
        rw [Function.uncurry_apply_pair, groupItem, Group.headings]
        split
        · rename_i alone
          rw [Item.headings, headed, List.isEmpty_iff.mp alone]
        · rw [Item.headings, headed, inductionHypothesis _ fewer _ part.below rfl]
      have beside : (groups (raise depth headings) headings).length ≤
          (marks (raise depth headings) 0
            ((groups (raise depth headings) headings).map Group.head)).length := by simp
      rw [List.flatMap_congr grouped, ← List.flatMap_map, List.map_snd_zip beside,
        flatMap_groups]

/-- The item of a group stands for one of the groups and has a mark on its head. -/
theorem exists_of_mem_groupRun {level : Int} {headings : List Heading} {item : Item}
    (member : item ∈ groupRun level headings) :
    ∃ mark, ∃ group ∈ groups level headings,
      mark.heading = group.head ∧ item = groupItem level mark group := by
  rw [groupRun, ← List.map_uncurry_zip_eq_zipWith] at member
  obtain ⟨⟨mark, group⟩, paired, rfl⟩ := List.mem_map.mp member
  exact ⟨mark, group, (List.of_mem_zip paired).2, heading_of_mem_zip_marks paired, rfl⟩

/-- A page shows commands, and its mark is the first of its menu. -/
theorem exists_of_mem_pageRun {level : Int} {headings : List Heading} {item : Item}
    (member : item ∈ pageRun level headings) :
    ∃ first rest, item = .page ⟨first, level, 0⟩
      (flatRun (raise level (first :: rest)) (first :: rest)) := by
  obtain ⟨chunk, _, paged⟩ := List.mem_filterMap.mp member
  cases chunk with
  | nil => cases paged
  | cons first rest => exact ⟨first, rest, (Option.some.inj paged).symm⟩

/-- The inner run is the outer one, or one that an item of it opens, at any depth. -/
inductive Within : List Item → List Item → Prop where
  | self (run : List Item) : Within run run
  | through {inner outer : List Item} {item : Item} (member : item ∈ outer)
      (deeper : Within inner item.run) : Within inner outer

/-- Within a run of commands there are commands or nothing. -/
theorem exists_of_within_flatRun {level : Int} {headings : List Heading} {run : List Item}
    (within : Within run (flatRun level headings)) : ∃ shown, run = flatRun level shown := by
  cases within with
  | self => exact ⟨headings, rfl⟩
  | through member deeper =>
    obtain ⟨mark, _, rfl⟩ := List.mem_map.mp member
    cases deeper with
    | self => exact ⟨[], rfl⟩
    | through none _ => exact absurd none List.not_mem_nil

/-- What holds of each kind of runs holds of every run of an outline. Of the headings that are divided
into groups something may be assumed that passes on to what is below the head of a group.

Proof: by induction on the number of headings. The items of a run of commands open nothing, those of
pages open commands, and those of groups the outline of fewer headings. -/
theorem of_within_outline_of {property : List Item → Prop} {assumed : Int → List Heading → Prop}
    (flat : ∀ level headings, property (flatRun level headings))
    (paged : ∀ level headings, property (pageRun level headings))
    (grouped : ∀ depth headings, assumed depth headings →
      property (groupRun (raise depth headings) headings))
    (passes : ∀ depth headings, assumed depth headings →
      ∀ group ∈ groups (raise depth headings) headings,
        assumed (raise depth headings + 1) group.below)
    {depth : Int} {headings : List Heading} {run : List Item} (given : assumed depth headings)
    (within : Within run (outline depth headings)) : property run := by
  have commands {level : Int} {shown : List Heading}
      (deeper : Within run (flatRun level shown)) : property run := by
    obtain ⟨_, rfl⟩ := exists_of_within_flatRun deeper
    exact flat _ _
  induction size : headings.length using Nat.strongRecOn generalizing depth headings with
  | ind size inductionHypothesis =>
    subst size
    rcases outline_cases depth headings with ⟨_, made⟩ | ⟨_, _, made⟩ | ⟨_, _, made⟩
    · rw [made] at within
      exact commands within
    · rw [made] at within
      cases within with
      | self => exact paged _ _
      | through member deeper =>
        obtain ⟨first, rest, rfl⟩ := exists_of_mem_pageRun member
        exact commands deeper
    · rw [made] at within
      cases within with
      | self => exact grouped _ _ given
      | through member deeper =>
        obtain ⟨mark, group, among, _, rfl⟩ := exists_of_mem_groupRun member
        rw [groupItem] at deeper
        split at deeper
        · exact commands (show Within run (flatRun 0 []) from deeper)
        · have fewer := length_below_lt _ _ group among
          exact inductionHypothesis _ fewer (passes _ _ given group among) deeper rfl

/-- What holds of each kind of runs holds of every run of an outline. -/
theorem of_within_outline {property : List Item → Prop}
    (flat : ∀ level headings, property (flatRun level headings))
    (paged : ∀ level headings, property (pageRun level headings))
    (grouped : ∀ level headings, property (groupRun level headings)) {depth : Int}
    {headings : List Heading} {run : List Item} (within : Within run (outline depth headings)) :
    property run := by
  have alike (depth : Int) (headings : List Heading) (_ : True) :
      property (groupRun (raise depth headings) headings) := grouped _ headings
  exact of_within_outline_of flat paged alike (fun _ _ _ _ _ => trivial) trivial within

end Menus.Contents
