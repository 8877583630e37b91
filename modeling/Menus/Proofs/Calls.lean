import Mathlib.Logic.Relation
import Menus.Proofs.Descendants
import Menus.Proofs.Positions

/-!
# The calls that divide headings

A call is given a start, a stop and a depth. It shows its headings flat, or it finds their pages or groups
and calls itself for each page, or for what is below the head of each group.

What one call does is written down here with positions and words of 32 bits, and with the entries of the
inner calls left open. The entries for ranges of headings satisfy this description, whatever the positions
and depths are. So all that is computed on the way is known, and none of it can go wrong. The sum that
leads one level down is computed only where some heading is deeper than the menu, so the depth of the menu
is not the largest word. Pages and groups lie inside the range of their call, and what they are called for
is shorter, so the calls come to an end.
-/

namespace Menus.Contents

/-- Lists whose members go in pairs are zipped alike with labels. -/
theorem zipWith_eq_of_forall₂ {α β γ : Type} {related : α → β → Prop} {f : String → α → γ}
    {g : String → β → γ} {left : List α} {right : List β} (paired : List.Forall₂ related left right)
    (alike : ∀ shown one other, related one other → f shown one = g shown other)
    (labels : List String) : List.zipWith f labels left = List.zipWith g labels right := by
  induction paired generalizing labels with
  | nil => rw [List.zipWith_nil_right, List.zipWith_nil_right]
  | cons same _ inductionHypothesis =>
    cases labels with
    | nil => rfl
    | cons shown rest =>
      rw [List.zipWith_cons_cons, List.zipWith_cons_cons, alike shown _ _ same,
        inductionHypothesis rest]

/-- Every member of the one list goes with a member of the other. -/
theorem exists_of_mem_forall₂ {α β : Type} {related : α → β → Prop} {left : List α} {right : List β}
    (paired : List.Forall₂ related left right) {one : α} (member : one ∈ left) :
    ∃ other ∈ right, related one other := by
  induction paired with
  | nil => exact absurd member List.not_mem_nil
  | cons same _ inductionHypothesis =>
    rcases List.mem_cons.mp member with rfl | later
    · exact ⟨_, List.mem_cons_self, same⟩
    · obtain ⟨other, among, goes⟩ := inductionHypothesis later
      exact ⟨other, List.mem_cons_of_mem _ among, goes⟩

/-- A stretch of the headings and the depth of the menu they are to be shown in. -/
structure Call extends Stretch where
  depth : Int32
deriving DecidableEq, Repr

namespace Call

variable (all : List Heading) (call : Call)

/-- The depth of the menu of a call. -/
def level : Int32 := raiseWord call.depth (call.headings all)

/-- The groups of a call. -/
def groups : List Stretch := groupsFrom all (min call.stop all.length) (call.level all) call.start

/-- The calls for the pages of a call. -/
def pages : List Call := (call.toStretch.pages all).map fun page => ⟨page, call.level all⟩

/-- The call for what is below the head of a group, one level down. -/
def below (group : Stretch) : Call := ⟨⟨group.start + 1, group.stop⟩, call.level all + 1⟩

/-- The calls that a call makes. -/
def calls : List Call :=
  if (call.headings all).length ≤ pageSize then []
  else if (call.groups all).all Stretch.isAlone then call.pages all
  else ((call.groups all).filter fun group => !group.isAlone).map (call.below all)

/-- The entry for a page, which has the label of its first heading. -/
def pageEntry (shownOf : Call → List (Entry Menu)) (page : Call) : Entry Menu :=
  let shown :=
    match page.headings all with
    | [] => ""
    | first :: _ => String.ofList (labelWord (call.level all) 0 first).1
  submenu shown (shownOf page)

/-- The entry for a group with its head. -/
def partEntry (shownOf : Call → List (Entry Menu)) (shown : String) (part : Stretch × Heading) :
    Entry Menu :=
  if part.1.isAlone then command shown part.2
  else submenu shown (opening part.2 :: shownOf (call.below all part.1))

/-- The groups of a call with their heads. -/
def parts : List (Stretch × Heading) :=
  (call.groups all).filterMap fun group => all[group.start]?.map (group, ·)

/-- What a call does, where `shownOf` gives the entries of the calls it makes. -/
def work (shownOf : Call → List (Entry Menu)) : List (Entry Menu) :=
  if (call.headings all).length ≤ pageSize then
    List.zipWith command (labelWords (call.level all) 0 (call.headings all)) (call.headings all)
  else if (call.groups all).all Stretch.isAlone then
    (call.pages all).map (call.pageEntry all shownOf)
  else
    List.zipWith (call.partEntry all shownOf)
      (labelWords (call.level all) 0 ((call.parts all).map Prod.snd)) (call.parts all)

/-- The entries for the range of a call. -/
def shown : List (Entry Menu) := range all call.start call.stop call.depth.toInt

end Call

namespace Call

variable {all : List Heading} {call : Call}

/-- The sum that leads one level down is that of the numbers, and it does not overflow. -/
theorem toInt_level_succ {group : Stretch} (member : group ∈ call.groups all)
    (several : group.isAlone = false) :
    (call.level all).toInt < Int32.maxValue.toInt ∧
      (call.level all + 1).toInt = (call.level all).toInt + 1 := by
  obtain ⟨_, _, deeper⟩ := exists_deeper_of_mem_groupsFrom member several
  exact toInt_succ deeper

/-- The headings of a stretch are among all headings. -/
theorem fits_headings {stretch : Stretch} (fits : ∀ heading ∈ all, heading.Fits) :
    ∀ heading ∈ stretch.headings all, heading.Fits := by
  intro heading member
  rw [Stretch.headings, List.extract_eq_take_drop] at member
  exact fits heading (List.mem_of_mem_drop (List.mem_of_mem_take member))

/-- The depth of the menu of a call, as a number. -/
theorem toInt_level (fits : ∀ heading ∈ all, heading.Fits) :
    (call.level all).toInt = raise call.depth.toInt (call.headings all) :=
  toInt_raiseWord call.depth (fits_headings fits)

/-- The groups of a call are those of its headings. -/
theorem locates_groups (fits : ∀ heading ∈ all, heading.Fits) :
    List.Forall₂ (Locates all) (call.groups all)
      (Contents.groups (call.level all).toInt (call.headings all)) := by
  have counted := call.length_headings all
  by_cases room : call.start < min call.stop all.length
  · have stop : min call.stop all.length = call.start + (call.headings all).length := by omega
    rw [groups, stop]
    exact locates_groupsFrom (call.level all) (fits_headings fits) (call.toStretch.standsAt all)
  · have nothing : call.headings all = [] := by
      rw [← List.length_eq_zero_iff]
      omega
    rw [groups, groupsFrom, if_neg room, nothing, Contents.groups]
    exact .nil

/-- The groups of a call with their heads are the groups of its headings. -/
theorem locates_parts (fits : ∀ heading ∈ all, heading.Fits) :
    List.Forall₂ (fun part group => part.1 ∈ call.groups all ∧ Locates all part.1 group ∧
        part.2 = group.head)
      (call.parts all) (Contents.groups (call.level all).toInt (call.headings all)) := by
  have headed {stretches : List Stretch} {divided : List Group}
      (located : List.Forall₂ (Locates all) stretches divided) :
      List.Forall₂ (fun part group => Locates all part.1 group ∧ part.2 = group.head)
        (stretches.filterMap fun group => all[group.start]?.map (group, ·)) divided := by
    induction located with
    | nil => exact .nil
    | cons locates _ inductionHypothesis =>
      rw [List.filterMap_cons_some (by rw [locates.head]; rfl)]
      exact .cons ⟨locates, rfl⟩ inductionHypothesis
  rw [List.forall₂_and_left]
  constructor
  · intro part member
    obtain ⟨group, among, headed⟩ := List.mem_filterMap.mp member
    obtain ⟨head, _, rfl⟩ := Option.map_eq_some_iff.mp headed
    exact among
  · exact headed (locates_groups fits)

/-- The entries for the range of a call are those of its headings. -/
theorem shown_eq_partition (all : List Heading) (call : Call) :
    call.shown all = partition call.depth.toInt (call.headings all) :=
  range_eq_partition all call.start call.stop call.depth.toInt

/-- The groups of a call are those of one heading each if nothing is below the heads of the groups of its
headings. -/
theorem all_isAlone (fits : ∀ heading ∈ all, heading.Fits) :
    (call.groups all).all Stretch.isAlone =
      (Contents.groups (call.level all).toInt (call.headings all)).all fun group =>
        group.below.isEmpty := by
  have alike : (call.groups all).map Stretch.isAlone =
      (Contents.groups (call.level all).toInt (call.headings all)).map fun group =>
        group.below.isEmpty := by
    rw [← List.forall₂_eq_eq_eq, List.forall₂_map_left_iff, List.forall₂_map_right_iff]
    exact (locates_groups fits).imp fun _ _ locates => locates.isAlone_eq
  have everywhere := congrArg (fun alone => alone.all id) alike
  rw [List.all_map, List.all_map] at everywhere
  exact everywhere

/-- The entry for a page is that for the headings on it. -/
theorem pageEntry_eq (fits : ∀ heading ∈ all, heading.Fits) {first last : Nat} {page : Stretch}
    {chunk : List Heading} (locates : LocatesPage all first last page chunk) :
    call.pageEntry all (Call.shown all) ⟨page, call.level all⟩ =
      Contents.page (call.level all).toInt chunk := by
  have own := locates.headings_eq
  have flat : Call.shown all ⟨page, call.level all⟩ =
      flat (raise (call.level all).toInt chunk) chunk := by
    rw [shown_eq_partition, own, partition_of_length_le _ locates.short]
  have fitting : ∀ heading ∈ page.headings all, heading.Fits := fits_headings fits
  obtain ⟨head, rest, rfl⟩ := List.exists_cons_of_ne_nil locates.nonempty
  rw [own] at fitting
  rw [pageEntry, own, flat]
  show submenu (String.ofList (labelWord (call.level all) 0 head).1) _ = _
  rw [labelWord_eq _ _ (fitting head List.mem_cons_self)]
  rfl

/-- The call for what is below the head of a group has these headings. -/
theorem headings_below {stretch : Stretch} {group : Group} (locates : Locates all stretch group) :
    (call.below all stretch).headings all = group.below := by
  rw [below, locates.stop]
  exact locates.below.headings_eq

/-- The entry for a group is that for its head and what is below. -/
theorem partEntry_eq {part : Stretch × Heading} {group : Group}
    (member : part.1 ∈ call.groups all) (locates : Locates all part.1 group)
    (head : part.2 = group.head) (label : String) :
    call.partEntry all (Call.shown all) label part =
      groupEntry (call.level all).toInt label group := by
  rw [partEntry, groupEntry, locates.isAlone_eq, head]
  split
  · rfl
  · rename_i several
    rw [← locates.isAlone_eq, Bool.not_eq_true] at several
    have next := (toInt_level_succ member several).2
    rw [shown_eq_partition, headings_below locates]
    show submenu _ (_ :: partition (call.level all + 1).toInt group.below) = _
    rw [next]

/-- The heads of groups are the heads of the groups of the headings. -/
theorem heads_parts (fits : ∀ heading ∈ all, heading.Fits) :
    (call.parts all).map Prod.snd =
      (Contents.groups (call.level all).toInt (call.headings all)).map Group.head := by
  rw [← List.forall₂_eq_eq_eq, List.forall₂_map_left_iff, List.forall₂_map_right_iff]
  exact (locates_parts fits).imp fun _ _ located => located.2.2

/-- The heads of groups are among all headings. -/
theorem fits_heads (fits : ∀ heading ∈ all, heading.Fits) :
    ∀ heading ∈ (call.parts all).map Prod.snd, heading.Fits := by
  intro heading member
  obtain ⟨part, among, rfl⟩ := List.mem_map.mp member
  obtain ⟨group, _, headed⟩ := List.mem_filterMap.mp among
  obtain ⟨head, found, rfl⟩ := Option.map_eq_some_iff.mp headed
  exact fits head (List.mem_of_getElem? found)

/-- The entries for the range of a call are what the call does, where the inner calls have the entries
for their ranges. -/
theorem shown_eq_work (fits : ∀ heading ∈ all, heading.Fits) :
    call.shown all = call.work all (Call.shown all) := by
  have level : (call.level all).toInt = raise call.depth.toInt (call.headings all) := toInt_level fits
  rw [shown_eq_partition, work]
  split
  · rename_i short
    rw [partition_of_length_le _ short, ← level, flat, labelWords_eq _ _ (fits_headings fits)]
  · rename_i long
    have many := Nat.lt_of_not_le long
    rw [all_isAlone fits]
    split
    · rename_i alone
      have single : ∀ group ∈ Contents.groups (raise call.depth.toInt (call.headings all))
          (call.headings all), group.below = [] := by
        rw [← level]
        intro group member
        exact List.isEmpty_iff.mp (List.all_eq_true.mp alone group member)
      have located := call.toStretch.locates_pages all
      rw [partition_of_alone _ many single, ← level, pages, List.map_map, ← List.forall₂_eq_eq_eq,
        List.forall₂_map_left_iff, List.forall₂_map_right_iff]
      exact .flip (located.imp fun _ _ locates => (pageEntry_eq fits locates).symm)
    · rename_i several
      obtain ⟨group, member, deeper⟩ : ∃ group ∈ Contents.groups
          (raise call.depth.toInt (call.headings all)) (call.headings all), group.below ≠ [] := by
        rw [← level]
        simpa using several
      rw [partition_of_group _ many member deeper, ← level, labelWords_eq _ _ (fits_heads fits),
        heads_parts fits]
      -- the heads are the same, so the labels are, and the entries are compared one by one
      refine (zipWith_eq_of_forall₂ (locates_parts fits) ?_ _).symm
      rintro shown part group ⟨among, locates, head⟩
      exact partEntry_eq among locates head shown

/-- A call calls itself for pages or for what is below the heads of groups, and only if it has more than a
page of headings. -/
theorem mem_calls {inner : Call} (member : inner ∈ call.calls all) :
    pageSize < (call.headings all).length ∧ (inner ∈ call.pages all ∨
      ∃ group ∈ call.groups all, group.isAlone = false ∧ inner = call.below all group) := by
  rw [calls] at member
  split at member
  · exact absurd member List.not_mem_nil
  · rename_i long
    refine ⟨Nat.lt_of_not_le long, ?_⟩
    split at member
    · exact .inl member
    · obtain ⟨group, among, rfl⟩ := List.mem_map.mp member
      obtain ⟨found, several⟩ := List.mem_filter.mp among
      exact .inr ⟨group, found, by simpa using several, rfl⟩

/-- What a call does depends on the entries of the calls it makes, and on those of no others. -/
theorem work_congr {one other : Call → List (Entry Menu)}
    (same : ∀ inner ∈ call.calls all, one inner = other inner) :
    call.work all one = call.work all other := by
  rw [calls] at same
  rw [work, work]
  split
  · rfl
  · rename_i long
    rw [if_neg long] at same
    split
    · rename_i alone
      rw [if_pos alone] at same
      apply List.map_congr_left
      intro page member
      rw [pageEntry, pageEntry, same page member]
    · rename_i several
      rw [if_neg several] at same
      have alike : List.Forall₂ (fun first second => first = second ∧ first ∈ call.parts all)
          (call.parts all) (call.parts all) :=
        List.forall₂_same.mpr fun part member => ⟨rfl, member⟩
      apply zipWith_eq_of_forall₂ alike
      rintro shown part _ ⟨rfl, member⟩
      obtain ⟨group, among, headed⟩ := List.mem_filterMap.mp member
      obtain ⟨head, _, rfl⟩ := Option.map_eq_some_iff.mp headed
      rw [partEntry, partEntry]
      split
      · rfl
      · rename_i deeper
        rw [same _ (List.mem_map_of_mem (List.mem_filter.mpr ⟨among, by simpa using deeper⟩))]

/-- The inner range is not empty, lies inside the outer one and inside the list, and is shorter. -/
structure Encloses (all : List Heading) (outer inner : Call) : Prop where
  start : outer.start ≤ inner.start
  order : inner.start < inner.stop
  stop : inner.stop ≤ outer.stop
  bound : inner.stop ≤ all.length
  shorter : inner.stop - inner.start < (outer.headings all).length

/-- Pages lie inside the range of their call, and its depth is passed on to them. -/
theorem inside_of_mem_pages {page : Call} (member : page ∈ call.pages all) :
    page.depth = call.level all ∧ call.start ≤ page.start ∧ page.start < page.stop ∧
      page.stop ≤ call.stop ∧ page.stop ≤ all.length ∧ page.stop - page.start ≤ pageSize := by
  obtain ⟨stretch, among, rfl⟩ := List.mem_map.mp member
  obtain ⟨chunk, _, locates⟩ := exists_of_mem_forall₂ (call.toStretch.locates_pages all) among
  have counted := call.length_headings all
  have some := List.length_pos_iff.mpr locates.nonempty
  have short := locates.short
  have stop := locates.stop
  obtain ⟨behind, inside⟩ := locates.inside
  have own : stretch.start < stretch.stop ∧ stretch.stop ≤ call.stop ∧ stretch.stop ≤ all.length ∧
      stretch.stop - stretch.start ≤ pageSize := by omega
  exact ⟨rfl, behind, own⟩

/-- The calls that a call makes are for shorter ranges inside its own. -/
theorem encloses_of_mem_calls {inner : Call} (member : inner ∈ call.calls all) :
    call.Encloses all inner := by
  obtain ⟨long, page | ⟨group, among, several, rfl⟩⟩ := mem_calls member
  · obtain ⟨_, behind, order, inside, bound, short⟩ := inside_of_mem_pages page
    exact ⟨behind, order, inside, bound, by omega⟩
  · have counted := call.length_headings all
    obtain ⟨behind, order, inside⟩ := inside_of_mem_groupsFrom among
    have more : group.stop ≠ group.start + 1 := of_decide_eq_false several
    have start : (call.below all group).start = group.start + 1 := rfl
    have stop : (call.below all group).stop = group.stop := rfl
    exact ⟨by omega, by omega, by omega, by omega, by omega⟩

/-- The headings of an enclosed range are among those of the outer one. -/
theorem Encloses.mem {outer inner : Call} (encloses : outer.Encloses all inner) {heading : Heading}
    (member : heading ∈ inner.headings all) : heading ∈ outer.headings all := by
  obtain ⟨start, order, stop, _, _⟩ := encloses
  have inside : inner.headings all = (outer.headings all).extract (inner.start - outer.start)
      (inner.stop - outer.start) := by
    simp only [Stretch.headings, List.extract_eq_take_drop, List.drop_take, List.drop_drop,
      List.take_take]
    congr 2 <;> omega
  rw [inside, List.extract_eq_take_drop] at member
  exact List.mem_of_mem_drop (List.mem_of_mem_take member)

/-- The depth of a menu is at most that of each of its headings that is not above the depth asked for. -/
theorem level_le {heading : Heading} (member : heading ∈ call.headings all)
    (deep : call.depth ≤ heading.word) : call.level all ≤ heading.word := by
  rw [level, raiseWord]
  cases least : ((call.headings all).map Heading.word).min? with
  | none => exact deep
  | some word =>
    have below := (List.min?_eq_some_iff.mp least).2 _ (List.mem_map_of_mem member)
    show max call.depth word ≤ heading.word
    rw [Int32.le_iff_toInt_le] at deep below ⊢
    rw [toInt_max]
    omega

/-- What an inner call is asked for is not deeper than those of its headings that are not above the menu of
the outer call. -/
theorem depth_le_of_mem_calls (fits : ∀ heading ∈ all, heading.Fits) {inner : Call}
    (member : inner ∈ call.calls all) {heading : Heading} (shows : heading ∈ inner.headings all)
    (deep : call.level all ≤ heading.word) : inner.depth ≤ heading.word := by
  obtain ⟨_, page | ⟨stretch, among, several, rfl⟩⟩ := mem_calls member
  · rwa [(inside_of_mem_pages page).1]
  · obtain ⟨group, grouped, locates⟩ := exists_of_mem_forall₂ (locates_groups fits) among
    have fitting := fits_headings fits heading shows
    rw [headings_below locates] at shows
    have deeper := depth_lt_of_mem_below grouped shows
    have next := (toInt_level_succ among several).2
    rw [Int32.le_iff_toInt_le, fitting.toInt_word]
    show (call.level all + 1).toInt ≤ heading.depth
    omega

/-- One call makes the other. -/
def Makes (all : List Heading) (outer inner : Call) : Prop := inner ∈ outer.calls all

/-- In all calls that a call leads to, the depth of a menu is at most that of each of its headings that is
not above the depth the first call is asked for. -/
theorem level_le_of_reached (fits : ∀ heading ∈ all, heading.Fits) {reached : Call}
    (leads : Relation.ReflTransGen (Makes all) call reached) {heading : Heading}
    (member : heading ∈ reached.headings all) (deep : call.depth ≤ heading.word) :
    reached.level all ≤ heading.word := by
  induction leads with
  | refl => exact level_le member deep
  | tail _ makes inductionHypothesis =>
    -- the heading is in the range of the outer call too, so it is not above that menu
    have outer := inductionHypothesis ((encloses_of_mem_calls makes).mem member)
    exact level_le member (depth_le_of_mem_calls fits makes member outer)

end Call

/-- What a call is and does when nothing goes wrong in it. -/
structure Call.Sound (all : List Heading) (call : Call) : Prop where
  /-- The entries for its range are what it does, where the inner calls have the entries for theirs. -/
  shown : call.shown all = call.work all (Call.shown all)
  /-- The calls it makes are all that it depends on. -/
  depends : ∀ one other : Call → List (Entry Menu),
    (∀ inner ∈ call.calls all, one inner = other inner) → call.work all one = call.work all other
  /-- The calls it makes are for ranges inside its own that are shorter. -/
  encloses : ∀ inner ∈ call.calls all, call.Encloses all inner
  /-- One is added to its depth only for a group of several headings, and then the depth is not the
  largest word. -/
  succ : ∀ group ∈ call.groups all, group.isAlone = false →
    (call.level all).toInt < Int32.maxValue.toInt ∧
      (call.level all + 1).toInt = (call.level all).toInt + 1
  /-- Its pages begin and end inside its range. -/
  pages : ∀ page ∈ call.pages all, call.start ≤ page.start ∧ page.start < page.stop ∧
    page.stop ≤ call.stop ∧ page.stop ≤ all.length
  /-- The difference from which the indentation of a heading is computed is not negative, and it is the
  exact one, held at the ends of what there is room for. -/
  indentation : ∀ heading ∈ all, 0 ≤ steps (call.level all) heading ∧
    (steps (call.level all) heading).toInt =
      max 0 (min Int32.maxValue.toInt (heading.depth - (call.level all).toInt))

end Menus.Contents

namespace Menus

/-- Nothing that is computed for a range of headings goes wrong, whatever the positions and depths are.
The entries for a range are made by calls, of which the first is for the range itself. In each of them the
depth one level down is computed only for a depth below the largest word; every call it makes is for a
range that is inside its own and inside the list, and that is shorter; every page begins and ends inside
its range; and the difference from which the indentation of a label is computed is neither negative nor
wrapped around. That it is raised to zero happens only to headings above the depth that was asked for. -/
theorem divisions_stay_in_bounds (all : List Heading) (fits : ∀ heading ∈ all, heading.Fits)
    (start stop : Nat) (depth : Int32) :
    let first : Contents.Call := ⟨⟨start, stop⟩, depth⟩
    first.shown all = Contents.range all start stop depth.toInt ∧
      ∀ call, Relation.ReflTransGen (Contents.Call.Makes all) first call →
        call.Sound all ∧ ∀ heading ∈ call.headings all, depth ≤ heading.word →
          0 ≤ heading.depth - (call.level all).toInt := by
  refine ⟨rfl, ?_⟩
  intro call leads
  refine ⟨⟨Contents.Call.shown_eq_work fits, fun _ _ => Contents.Call.work_congr,
    fun _ => Contents.Call.encloses_of_mem_calls, fun _ => Contents.Call.toInt_level_succ, ?_, ?_⟩, ?_⟩
  · intro page member
    obtain ⟨_, behind, order, inside, bound, _⟩ := Contents.Call.inside_of_mem_pages member
    exact ⟨behind, order, inside, bound⟩
  · intro heading member
    have exactly := Contents.toInt_steps (call.level all) (fits heading member)
    refine ⟨?_, exactly⟩
    rw [Int32.le_iff_toInt_le, exactly, Int32.toInt_zero]
    omega
  · intro heading member deep
    have level := Contents.Call.level_le_of_reached fits leads member deep
    rw [Int32.le_iff_toInt_le, (Contents.Call.fits_headings fits heading member).toInt_word] at level
    omega

/-- A heading as high as a word can say, and more than a page of headings as deep as one can say. -/
def Contents.extremes : List Heading :=
  let shown := Int32.minValue.toInt :: List.replicate 26 Int32.maxValue.toInt
  shown.mapIdx fun position depth => ⟨depth, "H", .ofMenu "go" (toString position)⟩

/-- A range that goes beyond the end, asked for one level above the deepest, leads to a menu of the
largest depth there is and to pages in it, and nothing goes wrong on the way. -/
theorem calls_reach_the_largest_depth :
    (∀ heading ∈ Contents.extremes, heading.Fits) ∧
      ∃ call, Relation.ReflTransGen (Contents.Call.Makes Contents.extremes)
          ⟨⟨0, 100⟩, Int32.maxValue - 1⟩ call ∧
        call.level Contents.extremes = Int32.maxValue ∧ call.calls Contents.extremes ≠ [] ∧
        call.Sound Contents.extremes := by
  have fits : ∀ heading ∈ Contents.extremes, heading.Fits := by decide +kernel
  have below : Contents.Call.Makes Contents.extremes ⟨⟨0, 100⟩, Int32.maxValue - 1⟩
      ⟨⟨1, 27⟩, Int32.maxValue⟩ := by
    rw [Contents.Call.Makes]
    decide +kernel
  have leads := Relation.ReflTransGen.single below
  have sound := ((divisions_stay_in_bounds Contents.extremes fits 0 100 (Int32.maxValue - 1)).2 _ leads).1
  exact ⟨fits, _, leads, by decide +kernel, by decide +kernel, sound⟩

end Menus
