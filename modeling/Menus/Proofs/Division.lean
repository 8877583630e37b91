import Menus.Proofs.Partition

/-!
# How headings are divided

A run of headings is shown in one of three ways. Up to a page of them is flat. More are shown as one
entry for each group, if any group has more than one member, and in pages otherwise. So more than a
page of headings always opens a menu, whatever the depths are.

Menus of contents therefore stay short. A menu that opens no other lists no more than a page of
headings that follow each other in the document: it is flat itself, or it is a page, or it belongs
to a group, and then the heading of the group stands in front of what is flat.
-/

namespace Menus

/-- The menu opens no other menu. -/
def Menu.IsLeaf (menu : Menu) : Prop :=
  ∀ entry ∈ menu.entries, entry.isSubmenu = false

namespace Contents

/-- The entry for a group in a menu of the given depth. -/
def groupEntry (depth : Int) (shown : String) (group : Group) : Entry Menu :=
  if group.below.isEmpty then command shown group.head
  else submenu shown (opening group.head :: partition (depth + 1) group.below)

/-- Up to a page of headings is shown flat. -/
theorem partition_of_length_le (depth : Int) {headings : List Heading}
    (short : headings.length ≤ pageSize) :
    partition depth headings = flat (raise depth headings) headings := by
  rw [partition]
  exact if_pos short

/-- More headings are shown in pages if each group has one member only. -/
theorem partition_of_alone (depth : Int) {headings : List Heading}
    (long : pageSize < headings.length)
    (alone : ∀ group ∈ groups (raise depth headings) headings, group.below = []) :
    partition depth headings = (runs pageSize headings).map (page (raise depth headings)) := by
  rw [partition]
  simp only [Nat.not_le.mpr long, if_false]
  exact if_pos (List.all_eq_true.mpr fun group member => by simp [alone group member])

/-- More headings are shown as one entry for each group if one of the groups has several members. -/
theorem partition_of_group (depth : Int) {headings : List Heading}
    (long : pageSize < headings.length) {group : Group}
    (member : group ∈ groups (raise depth headings) headings) (several : group.below ≠ []) :
    partition depth headings =
      List.zipWith (groupEntry (raise depth headings))
        (labels (raise depth headings) 0
          ((groups (raise depth headings) headings).map Group.head))
        (groups (raise depth headings) headings) := by
  have grouped : ¬((groups (raise depth headings) headings).all fun group =>
      group.below.isEmpty) = true := by
    intro alone
    exact several (List.isEmpty_iff.mp (List.all_eq_true.mp alone group member))
  rw [partition]
  simp only [Nat.not_le.mpr long, grouped, if_false]
  generalize labels (raise depth headings) 0
    ((groups (raise depth headings) headings).map Group.head) = shown
  calc
    _ = List.zipWith (groupEntry (raise depth headings)) shown
          ((groups (raise depth headings) headings).attach.map Subtype.val) :=
      List.zipWith_map_right.symm
    _ = _ := by rw [List.attach_map_subtype_val]

/-- A group of several members is shown as a submenu. -/
theorem groupEntry_of_several (depth : Int) (shown : String) {group : Group}
    (several : group.below ≠ []) :
    groupEntry depth shown group =
      submenu shown (opening group.head :: partition (depth + 1) group.below) :=
  if_neg fun empty => several (List.isEmpty_iff.mp empty)

/-- The entries for groups are those of groups that are among them. -/
theorem exists_of_mem_groupEntries {depth : Int} {shown : List String} {divided : List Group}
    {entry : Entry Menu} (member : entry ∈ List.zipWith (groupEntry depth) shown divided) :
    ∃ label, ∃ group ∈ divided, entry = groupEntry depth label group := by
  rw [← List.map_uncurry_zip_eq_zipWith] at member
  obtain ⟨⟨label, group⟩, paired, rfl⟩ := List.mem_map.mp member
  exact ⟨label, group, (List.of_mem_zip paired).2, rfl⟩

/-- The entry of every group is among the entries. -/
theorem exists_groupEntry_mem (depth : Int) {divided : List Group} {group : Group}
    (member : group ∈ divided) :
    ∃ shown, groupEntry depth shown group ∈
      List.zipWith (groupEntry depth) (labels depth 0 (divided.map Group.head)) divided := by
  obtain ⟨position, inside, rfl⟩ := List.mem_iff_getElem.mp member
  have paired : position < (List.zipWith (groupEntry depth)
      (labels depth 0 (divided.map Group.head)) divided).length := by
    simpa [length_labels] using inside
  have among := List.getElem_mem paired
  rw [List.getElem_zipWith] at among
  exact ⟨_, among⟩

/-- More than a page of headings opens a menu, whatever the depths are: a page, or the menu of a
group of several. -/
theorem exists_submenu_of_length_lt (depth : Int) {headings : List Heading}
    (long : pageSize < headings.length) :
    ∃ entry ∈ partition depth headings, entry.isSubmenu = true := by
  by_cases alone : ∀ group ∈ groups (raise depth headings) headings, group.below = []
  · rw [partition_of_alone depth long alone]
    obtain ⟨first, rest, divided⟩ : ∃ first rest, runs pageSize headings = first :: rest := by
      apply List.exists_cons_of_ne_nil
      intro none
      have whole := flatten_runs pageSize headings (by decide)
      rw [none] at whole
      rw [← whole] at long
      exact Nat.not_lt_zero _ long
    exact ⟨page _ first, by rw [divided]; exact List.mem_cons_self, rfl⟩
  · obtain ⟨group, member, several⟩ : ∃ group ∈ groups (raise depth headings) headings,
        group.below ≠ [] := by
      simpa using alone
    obtain ⟨shown, among⟩ := exists_groupEntry_mem (raise depth headings) member
    rw [partition_of_group depth long member several]
    exact ⟨_, among, by rw [groupEntry_of_several _ _ several]; rfl⟩

/-- No page is longer than a page may be. -/
theorem length_le_of_mem_runs {size : Nat} {headings chunk : List Heading}
    (member : chunk ∈ runs size headings) : chunk.length ≤ size := by
  fun_induction runs size headings with
  | case1 => exact absurd member List.not_mem_nil
  | case2 headings _ inductionHypothesis =>
    rcases List.mem_cons.mp member with rfl | later
    · exact List.length_take_le _ _
    · exact inductionHypothesis later

/-- The headings of a group follow each other in the run that is divided. -/
theorem headings_infix_of_mem_groups {depth : Int} {headings : List Heading} {group : Group}
    (member : group ∈ groups depth headings) : group.headings <:+: headings := by
  have among := List.infix_of_mem_flatten (List.mem_map_of_mem (f := Group.headings) member)
  rwa [← List.flatMap_def, flatMap_groups] at among

/-- The menu lists no more than `limit` headings that follow each other in a range, behind at most
the one that stands in front of these. -/
def ListsPage (limit : Nat) (headings : List Heading) (menu : Menu) : Prop :=
  ∃ (head : Option Heading) (run : List Heading),
    menu.entries.map Entry.request? =
        (head.toList ++ run).map (fun heading => some heading.request) ∧
      run.length ≤ limit ∧ head.toList ++ run <:+: headings

namespace ListsPage

variable {limit : Nat} {headings : List Heading} {menu : Menu}

/-- What is listed of a part of a range is listed of the range. -/
theorem of_infix {part : List Heading} (among : part <:+: headings)
    (lists : ListsPage limit part menu) : ListsPage limit headings menu := by
  obtain ⟨head, run, requests, short, inside⟩ := lists
  exact ⟨head, run, requests, short, inside.trans among⟩

/-- There is at most one entry more than the limit. -/
theorem length_le (lists : ListsPage limit headings menu) : menu.entries.length ≤ limit + 1 := by
  obtain ⟨head, run, requests, short, _⟩ := lists
  have counted := congrArg List.length requests
  simp only [List.length_map, List.length_append] at counted
  have single : head.toList.length ≤ 1 := by cases head <;> simp
  omega

end ListsPage

/-- A flat run shows the requests of its headings. -/
theorem requests_flat (depth : Int) (headings : List Heading) :
    (flat depth headings).map Entry.request? =
      headings.map fun heading => some heading.request := by
  have labelled : headings.length ≤ (labels depth 0 headings).length :=
    Nat.le_of_eq (length_labels depth 0 headings).symm
  have requested : Entry.request? ∘ Function.uncurry command =
      (fun heading : Heading => some heading.request) ∘ Prod.snd := rfl
  rw [flat, ← List.map_uncurry_zip_eq_zipWith, List.map_map, requested, ← List.map_map,
    List.map_snd_zip labelled]

/-- An entry of a flat run opens no menu. -/
theorem child?_of_mem_flat {depth : Int} {headings : List Heading} {entry : Entry Menu}
    (member : entry ∈ flat depth headings) : entry.child? = none := by
  obtain ⟨shown, heading, _, rfl⟩ := exists_of_mem_flat member
  rfl

/-- A page of a range at most, shown flat, lists a page. -/
theorem everywhere_flat (name : String) (depth : Int) {run headings : List Heading}
    (short : run.length ≤ pageSize) (among : run <:+: headings) :
    (Menu.mk name (flat depth run)).Everywhere fun menu =>
      menu.IsLeaf → ListsPage pageSize headings menu := by
  apply Menu.everywhere_of_children
  · intro _
    exact ⟨none, run, requests_flat depth run, short, among⟩
  · intro entry member child attached
    rw [child?_of_mem_flat member] at attached
    cases attached

/-- In the menu of a group the heading of the group stands in front of what lists a page. -/
theorem everywhere_group (depth : Int) {group : Group} {headings : List Heading}
    (among : group.headings <:+: headings)
    (below : ∀ name, (Menu.mk name (partition depth group.below)).Everywhere fun menu =>
      menu.IsLeaf → ListsPage pageSize group.below menu) :
    (Menu.mk "" (opening group.head :: partition depth group.below)).Everywhere fun menu =>
      menu.IsLeaf → ListsPage pageSize headings menu := by
  apply Menu.everywhere_of_children
  · intro leaf
    have short : group.below.length ≤ pageSize := by
      by_contra long
      obtain ⟨entry, member, opens⟩ :=
        exists_submenu_of_length_lt depth (Nat.lt_of_not_le long)
      have closed := leaf entry (List.mem_cons_of_mem _ member)
      rw [opens] at closed
      cases closed
    refine ⟨some group.head, group.below, ?_, short, among⟩
    rw [partition_of_length_le depth short, List.map_cons, requests_flat]
    rfl
  · intro entry member child attached inner deeper leaf
    rcases List.mem_cons.mp member with rfl | later
    · cases attached
    · have inside := below "" inner (.through later attached deeper) leaf
      exact inside.of_infix ((List.suffix_cons group.head group.below).isInfix.trans among)

/-- However headings are divided, the menus that open no other list a page each.

Proof: by induction on the number of headings. A page is flat, and below the heading of a group
there are fewer headings than in all groups. -/
theorem everywhere_partition (name : String) (depth : Int) (headings : List Heading) :
    (Menu.mk name (partition depth headings)).Everywhere fun menu =>
      menu.IsLeaf → ListsPage pageSize headings menu := by
  induction size : headings.length using Nat.strongRecOn generalizing name depth headings with
  | ind size inductionHypothesis =>
    subst size
    by_cases short : headings.length ≤ pageSize
    · rw [partition_of_length_le depth short]
      exact everywhere_flat name _ short (List.infix_refl headings)
    · have long : pageSize < headings.length := Nat.lt_of_not_le short
      apply Menu.everywhere_of_children
      · intro leaf
        obtain ⟨entry, member, opens⟩ := exists_submenu_of_length_lt depth long
        rw [leaf entry member] at opens
        cases opens
      · intro entry member child attached
        by_cases alone : ∀ group ∈ groups (raise depth headings) headings, group.below = []
        · rw [partition_of_alone depth long alone] at member
          obtain ⟨chunk, among, rfl⟩ := List.mem_map.mp member
          cases attached
          have inside := List.infix_of_mem_flatten among
          rw [flatten_runs pageSize headings (by decide)] at inside
          exact everywhere_flat "" _ (length_le_of_mem_runs among) inside
        · obtain ⟨group, among, several⟩ : ∃ group ∈ groups (raise depth headings) headings,
              group.below ≠ [] := by
            simpa using alone
          rw [partition_of_group depth long among several] at member
          obtain ⟨shown, opened, grouped, rfl⟩ := exists_of_mem_groupEntries member
          rw [groupEntry] at attached
          split at attached
          · cases attached
          · cases attached
            exact everywhere_group _ (headings_infix_of_mem_groups grouped) fun name =>
              inductionHypothesis _ (length_below_lt _ _ opened grouped) name _ opened.below rfl

end Contents

/-- Adding a range of headings to a menu leaves what the menu holds in front. A range of up to 25
headings appends as many commands and no submenu, a longer one at least one submenu. Throughout what
is appended, a menu that opens no other lists at most 25 headings that follow each other in the
range, behind at most the heading that stands in front of these, so it has at most 26 entries. -/
theorem menus_of_contents_stay_short (menu : Menu) (headings : List Heading) (start stop : Nat)
    (depth : Int) :
    ∃ forest : List (Entry Menu),
      (menu.append (Contents.range headings start stop depth)).entries = menu.entries ++ forest ∧
      ((headings.extract start stop).length ≤ 25 →
        forest.length = (headings.extract start stop).length ∧
          ∀ entry ∈ forest, entry.isCommand = true ∧ entry.isSubmenu = false) ∧
      (25 < (headings.extract start stop).length → ∃ entry ∈ forest, entry.isSubmenu = true) ∧
      (Menu.mk "" forest).Everywhere fun inner => inner.IsLeaf →
        Contents.ListsPage 25 (headings.extract start stop) inner ∧ inner.entries.length ≤ 26 := by
  refine ⟨_, Menu.entries_append _ _, ?_⟩
  rw [Contents.range_eq_partition]
  refine ⟨?_, Contents.exists_submenu_of_length_lt depth, ?_⟩
  · intro short
    rw [Contents.partition_of_length_le depth short]
    refine ⟨Contents.length_flat _ _, fun entry member => ?_⟩
    obtain ⟨shown, heading, _, rfl⟩ := Contents.exists_of_mem_flat member
    exact ⟨rfl, rfl⟩
  · intro inner within leaf
    have lists := Contents.everywhere_partition "" depth _ inner within leaf
    exact ⟨lists, lists.length_le⟩

end Menus
