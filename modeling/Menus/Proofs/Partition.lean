import Menus.Proofs.Generated
import Menus.Proofs.Submenus

/-!
# No heading is lost in a menu of contents

However headings are divided, flat, in pages or in groups, the commands of the resulting menu are
those of the headings, each once and in the order of the document. What is to be read of a menu in
display order is said by `Menu.leaves`: the menu of a submenu stands in the place of the submenu.

The three ways of dividing recurse into each other with a depth that is raised on the way. None of
this matters for what is listed: `Contents.Covers` relates entries to the headings they list, without
labels and depths, and each way of dividing preserves it. Groups and pages are runs of the headings
that together give the headings back, and a group's menu opens with its own heading.
-/

namespace Menus

mutual

/-- The entries of a menu in display order, the menu of each submenu in the place of the submenu. -/
def Menu.leaves : Menu → List (Entry Menu)
  | ⟨_, entries⟩ => leavesOf entries

/-- The leaves of a run of entries. -/
def leavesOf : List (Entry Menu) → List (Entry Menu)
  | [] => []
  | ⟨.submenu _ (some child), _, _, _⟩ :: rest => child.leaves ++ leavesOf rest
  | entry :: rest => entry :: leavesOf rest

end

/-- The submenu has a menu, and that menu is not empty. -/
def Entry.Filled (entry : Entry Menu) : Prop :=
  entry.isSubmenu = true → ∃ child, entry.child? = some child ∧ child.entries ≠ []

namespace Contents

/-- The entries list the headings in order: commands one each, submenus those that their entries
list. -/
inductive Covers : List (Entry Menu) → List Heading → Prop where
  | nil : Covers [] []
  | command {entries : List (Entry Menu)} {headings : List Heading} (label : String)
      (heading : Heading) (rest : Covers entries headings) :
      Covers (command label heading :: entries) (heading :: headings)
  | submenu {inner entries : List (Entry Menu)} {below headings : List Heading} (label : String)
      (filled : inner ≠ []) (inside : Covers inner below) (rest : Covers entries headings) :
      Covers (submenu label inner :: entries) (below ++ headings)

namespace Covers

variable {entries : List (Entry Menu)} {headings : List Heading}

/-- Entries one after another list the headings one after another. -/
theorem append {others : List (Entry Menu)} {further : List Heading}
    (left : Covers entries headings) (right : Covers others further) :
    Covers (entries ++ others) (headings ++ further) := by
  induction left with
  | nil => exact right
  | command label heading _ inductionHypothesis => exact .command label heading inductionHypothesis
  | submenu label filled inside _ _ inductionHypothesis =>
    rw [List.append_assoc]
    exact .submenu label filled inside inductionHypothesis

/-- The leaves are commands with the requests of the headings. -/
theorem requests (covers : Covers entries headings) :
    (leavesOf entries).map Entry.request? = headings.map fun heading => some heading.request := by
  induction covers with
  | nil => rfl
  | command label heading _ inductionHypothesis =>
    simp only [Contents.command, Entry.enabledCommand, Entry.command, leavesOf, List.map_cons,
      inductionHypothesis]
    rfl
  | submenu label _ _ _ insideHypothesis restHypothesis =>
    simp only [Contents.submenu, Entry.opened, leavesOf, Menu.leaves, List.map_append,
      insideHypothesis, restHypothesis]

/-- The leaves are enabled. -/
theorem enabled (covers : Covers entries headings) :
    ∀ entry ∈ leavesOf entries, entry.status.availability = .enabled := by
  induction covers with
  | nil => simp [leavesOf]
  | command label heading _ inductionHypothesis =>
    intro entry member
    rcases List.mem_cons.mp member with rfl | later
    · rfl
    · exact inductionHypothesis entry later
  | submenu label _ _ _ insideHypothesis restHypothesis =>
    intro entry member
    simp only [Contents.submenu, Entry.opened, leavesOf, Menu.leaves, List.mem_append] at member
    rcases member with inner | later
    · exact insideHypothesis entry inner
    · exact restHypothesis entry later

/-- No submenu is empty, at any depth. -/
theorem filled (covers : Covers entries headings) (name : String) :
    (Menu.mk name entries).Everywhere fun menu => ∀ entry ∈ menu.entries, entry.Filled := by
  induction covers generalizing name with
  | nil => exact Menu.everywhere_of_children (by simp) (by simp)
  | command label heading _ inductionHypothesis =>
    apply Menu.everywhere_of_children
    · intro entry member
      rcases List.mem_cons.mp member with rfl | later
      · intro opens
        cases opens
      · exact (inductionHypothesis name).top entry later
    · intro entry member child attached
      rcases List.mem_cons.mp member with rfl | later
      · cases attached
      · intro inner deeper
        exact inductionHypothesis name inner (.through later attached deeper)
  | submenu label filled _ _ insideHypothesis restHypothesis =>
    apply Menu.everywhere_of_children
    · intro entry member
      rcases List.mem_cons.mp member with rfl | later
      · intro _
        exact ⟨_, rfl, filled⟩
      · exact (restHypothesis name).top entry later
    · intro entry member child attached
      rcases List.mem_cons.mp member with rfl | later
      · cases attached
        exact insideHypothesis ""
      · intro inner deeper
        exact restHypothesis name inner (.through later attached deeper)

end Covers

/-- A flat run lists its headings. -/
theorem covers_zipWith_command {labels : List String} {headings : List Heading}
    (labelled : labels.length = headings.length) :
    Covers (List.zipWith command labels headings) headings := by
  induction headings generalizing labels with
  | nil =>
    rw [List.length_eq_zero_iff.mp labelled]
    exact .nil
  | cons heading rest inductionHypothesis =>
    cases labels with
    | nil => cases labelled
    | cons label others => exact .command label heading (inductionHypothesis (Nat.succ.inj labelled))

/-- Headings shown flat are listed. -/
theorem covers_flat (depth : Int) (headings : List Heading) :
    Covers (flat depth headings) headings :=
  covers_zipWith_command (length_labels depth 0 headings)

/-- Pages list the headings on them. -/
theorem covers_pages (depth : Int) {chunks : List (List Heading)}
    (nonempty : ∀ chunk ∈ chunks, chunk ≠ []) :
    Covers (chunks.map (page depth)) chunks.flatten := by
  induction chunks with
  | nil => exact .nil
  | cons chunk rest inductionHypothesis =>
    have shown : flat (raise depth chunk) chunk ≠ [] := by
      rw [← List.length_pos_iff, length_flat, List.length_pos_iff]
      exact nonempty chunk List.mem_cons_self
    have later := inductionHypothesis fun other member =>
      nonempty other (List.mem_cons_of_mem chunk member)
    exact .submenu _ shown (covers_flat _ chunk) later

/-- The headings of a group in order. -/
def Group.headings (group : Group) : List Heading :=
  group.head :: group.below

/-- The groups of a run together give the run back. -/
theorem flatMap_groups (depth : Int) (headings : List Heading) :
    (groups depth headings).flatMap Group.headings = headings := by
  fun_induction groups depth headings with
  | case1 => rfl
  | case2 head rest inductionHypothesis =>
    rw [List.flatMap_cons, inductionHypothesis, Group.headings, List.cons_append,
      List.takeWhile_append_dropWhile]

/-- Groups list their headings, when each is shown as a command of its own or as a submenu that opens
with its head and covers the rest. -/
theorem covers_zipWith_groups {among : List Group} {labels : List String}
    {divided : List { group // group ∈ among }} (labelled : labels.length = divided.length)
    {inside : { group // group ∈ among } → List (Entry Menu)}
    (covered : ∀ group, Covers (inside group) group.val.below) :
    Covers
      (List.zipWith
        (fun shown (group : { group // group ∈ among }) =>
          if group.val.below.isEmpty then command shown group.val.head
          else submenu shown (opening group.val.head :: inside group))
        labels divided)
      (divided.flatMap fun group => group.val.headings) := by
  induction divided generalizing labels with
  | nil =>
    rw [List.length_eq_zero_iff.mp labelled]
    exact .nil
  | cons group rest inductionHypothesis =>
    cases labels with
    | nil => cases labelled
    | cons label others =>
      have later := inductionHypothesis (Nat.succ.inj labelled)
      rw [List.zipWith_cons_cons, List.flatMap_cons]
      split
      · rename_i alone
        rw [Group.headings, List.isEmpty_iff.mp alone]
        exact .command label group.val.head later
      · have opened : Covers (opening group.val.head :: inside group) group.val.headings :=
          .command _ _ (covered group)
        exact .submenu label (List.cons_ne_nil _ _) opened later

/-- However headings are divided, the entries list them all in order.

Proof: by induction on the division. A flat run has a command for each heading. Pages and groups are
runs that together give the headings back; a page is flat, and a group shows its head and then, by
the induction, what is below it. -/
theorem covers_partition (depth : Int) (headings : List Heading) :
    Covers (partition depth headings) headings := by
  fun_induction partition depth headings with
  | case1 => exact covers_flat _ _
  | case2 depth headings _ _ _ _ =>
    have nonempty : ∀ chunk ∈ runs pageSize headings, chunk ≠ [] := fun chunk member =>
      ne_nil_of_mem_runs (by decide) member
    have pages := covers_pages (raise depth headings) nonempty
    rwa [flatten_runs pageSize headings (by decide)] at pages
  | case3 depth headings _ _ _ _ inductionHypothesis =>
    have labelled : (labels (raise depth headings) 0
        ((groups (raise depth headings) headings).map Group.head)).length =
        (groups (raise depth headings) headings).attach.length := by
      rw [length_labels, List.length_map, List.length_attach]
    have grouped := covers_zipWith_groups labelled inductionHypothesis
    have whole : (groups (raise depth headings) headings).attach.flatMap
        (fun group => group.val.headings) = headings := by
      rw [List.flatMap_subtype (g := Group.headings) (by simp), List.unattach_attach,
        flatMap_groups]
    rwa [whole] at grouped

/-- A range is partitioned as the headings in it are. A range that ends before it starts has none. -/
theorem range_eq_partition (headings : List Heading) (start stop : Nat) (depth : Int) :
    range headings start stop depth = partition depth (headings.extract start stop) := by
  have taken : (headings.take (min stop headings.length)).drop start =
      headings.extract start stop := by
    rw [List.extract_eq_take_drop, ← List.take_take, List.take_length, List.drop_take]
  rw [range, taken]
  split
  · rename_i backwards
    have none : headings.extract start stop = [] := by
      rw [← taken]
      exact List.drop_eq_nil_of_le (by rw [List.length_take]; omega)
    rw [none, partition]
    rfl
  · rfl

/-- The headings of a range are listed. -/
theorem covers_range (headings : List Heading) (start stop : Nat) (depth : Int) :
    Covers (range headings start stop depth) (headings.extract start stop) := by
  rw [range_eq_partition]
  exact covers_partition depth _

end Contents

/-- Adding a range of headings to a menu leaves what the menu holds in front and appends entries whose
commands, in display order, are those of the headings from `start` up to `stop`, each once and in
order. They are all enabled, and no submenu among the entries or below them is empty. This holds of
every range, also of one that ends before it starts or beyond the last heading, and of all depths. -/
theorem headings_are_listed_in_order (menu : Menu) (headings : List Heading) (start stop : Nat)
    (depth : Int) :
    ∃ forest : List (Entry Menu),
      (menu.append (Contents.range headings start stop depth)).entries = menu.entries ++ forest ∧
      (leavesOf forest).map Entry.request? =
        (headings.extract start stop).map (fun heading => some heading.request) ∧
      (∀ entry ∈ leavesOf forest, entry.status.availability = .enabled) ∧
      (Menu.mk "" forest).Everywhere fun inner => ∀ entry ∈ inner.entries, entry.Filled := by
  have covers := Contents.covers_range headings start stop depth
  exact ⟨_, Menu.entries_append _ _, covers.requests, covers.enabled, covers.filled ""⟩

end Menus
