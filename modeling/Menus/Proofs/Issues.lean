import Mathlib.Data.List.Basic
import Menus.Proofs.Keywords
import Menus.Proofs.Undefined

/-!
# Issues and the defects they report

A check goes through the templates, the menubar first, and through the entries of each, and compares the
hint of each entry with those of the entries behind it. What it ought to find can be said without going
through anything: a template and an entry in it, or two of its entries, and what is wrong with them. Such
a defect is known by its place alone, so issues that read alike are told apart, and one that is reported
twice is noticed.

Every defect is reported once, in the order of their places, and there are no other issues. Which hints
fail does not depend on the order of the entries. The order decides which of two entries is named first,
and so whose spelling of the hint is given.
-/

namespace Menus

/-- A place in the templates at which something is wrong. Templates are counted from the menubar, entries
from the top of their menu. -/
inductive Defect where
  /-- A submenu refers to a menu that is not registered. -/
  | dangling (template entry : Nat)
  /-- A hint does not occur in the label it belongs to. -/
  | missing (template entry : Nat)
  /-- Two entries of a menu have one hint. -/
  | shared (template first second : Nat)
deriving DecidableEq, Repr

/-- Where a defect is reported: by template, references before hints, and by entry. -/
def Defect.key : Defect → List Nat
  | dangling template entry => [template, 0, entry]
  | missing template entry => [template, 1, entry]
  | shared template first second => [template, 1, first, second]

namespace Entry

/-- The entry has a hint, and it does not occur in the label. -/
def Misses (entry : Entry Menu) : Prop :=
  entry.shortcut ≠ "" ∧ ¬ entry.shortcut.toList <:+: entry.text.toList

/-- The entries have one hint, the case of ASCII letters ignored. -/
def Collides (first second : Entry Menu) : Prop :=
  first.shortcut ≠ "" ∧ Text.foldCase first.shortcut = Text.foldCase second.shortcut

end Entry

namespace Registry

/-- The template has the defect, and the issue is what is to be reported of it. -/
inductive ReportsIn (registry : Registry) (template : Nat) (source : Menu) :
    Defect → TemplateIssue → Prop where
  | dangling {position : Nat} {entry : Entry Menu} {name : String}
      (stands : source.entries[position]? = some entry) (dangles : registry.Dangles entry name) :
      ReportsIn registry template source (.dangling template position)
        (.unresolvedSubmenu source.name entry.text name)
  | missing {position : Nat} {entry : Entry Menu} (stands : source.entries[position]? = some entry)
      (misses : entry.Misses) :
      ReportsIn registry template source (.missing template position)
        (.shortcut (.missing source.name entry.text entry.shortcut))
  | shared {first second : Nat} {entry other : Entry Menu}
      (stands : source.entries[first]? = some entry) (behind : source.entries[second]? = some other)
      (order : first < second) (collides : entry.Collides other) :
      ReportsIn registry template source (.shared template first second)
        (.shortcut (.duplicate source.name entry.text other.text entry.shortcut))

/-- One of the templates has the defect, and the issue is what is to be reported of it. -/
def Reports (registry : Registry) (defect : Defect) (issue : TemplateIssue) : Prop :=
  ∃ template source, registry.sources[template]? = some source ∧
    registry.ReportsIn template source defect issue

end Registry

/-- A piece occurs in a text if the text has it in one run. -/
theorem Text.occursIn_iff {piece text : List Char} :
    Text.occursIn piece text = true ↔ piece <:+: text := by
  induction text with
  | nil => rw [occursIn, List.isEmpty_iff, List.infix_nil]
  | cons c rest inductionHypothesis =>
    rw [occursIn, Bool.or_eq_true, List.isPrefixOf_iff_prefix, inductionHypothesis,
      List.infix_cons_iff]

namespace Entry

/-- The check of a hint against its own label. -/
theorem misses_iff {entry : Entry Menu} :
    entry.Misses ↔ entry.shortcut.isEmpty = false ∧ entry.lacksShortcut = true := by
  rw [Misses, lacksShortcut, ← Text.occursIn_iff, Bool.not_eq_true', Bool.not_eq_true, ne_eq,
    ← String.isEmpty_iff, Bool.not_eq_true]

/-- The check of a hint against that of another entry. -/
theorem collides_iff {entry other : Entry Menu} :
    entry.Collides other ↔ entry.shortcut.isEmpty = false ∧ entry.sharesShortcut other = true := by
  rw [Collides, sharesShortcut, Text.sameIgnoringCase_iff, ne_eq, ← String.isEmpty_iff,
    Bool.not_eq_true]

/-- Whether two entries have one hint does not depend on their order. -/
theorem Collides.symm {entry other : Entry Menu} (collides : entry.Collides other) :
    other.Collides entry := by
  obtain ⟨hinted, same⟩ := collides
  refine ⟨?_, same.symm⟩
  intro none
  rw [none, Text.foldCase, Text.foldCase, String.toList_empty, List.map_nil] at same
  have empty : entry.shortcut.toList = [] := List.map_eq_nil_iff.mp same
  exact hinted (String.toList_eq_nil_iff.mp empty)

/-- What is to be reported of the hint of the entry at a position and of the entries behind it. -/
def placedIssues (template : Nat) (menu : String) (position : Nat) (entry : Entry Menu)
    (later : List (Entry Menu)) : List (Defect × TemplateIssue) :=
  if entry.shortcut.isEmpty then []
  else
    (if entry.lacksShortcut then
      [(.missing template position, .shortcut (.missing menu entry.text entry.shortcut))]
    else []) ++
      ((later.zipIdx (position + 1)).filter fun other => entry.sharesShortcut other.1).map
        fun other => (.shared template position other.2,
          .shortcut (.duplicate menu entry.text other.1.text entry.shortcut))

/-- Without their places, these are the issues of the entry. -/
theorem map_snd_placedIssues (template : Nat) (menu : String) (position : Nat) (entry : Entry Menu)
    (later : List (Entry Menu)) :
    (entry.placedIssues template menu position later).map Prod.snd =
      (entry.shortcutIssues menu later).map .shortcut := by
  rw [placedIssues, shortcutIssues]
  split
  · rfl
  · rw [List.map_append, List.map_append]
    refine congrArg₂ _ ?_ ?_
    · split <;> rfl
    · conv_rhs => rw [← List.zipIdx_map_fst (position + 1) later, List.filter_map]
      rw [List.map_map, List.map_map, List.map_map]
      rfl

end Entry

/-- Positions count up. -/
theorem pairwise_zipIdx {α : Type} (list : List α) (start : Nat) :
    (list.zipIdx start).Pairwise fun one other => one.2 < other.2 := by
  have positions : ((list.zipIdx start).map Prod.snd).Pairwise (· < ·) := by
    rw [List.zipIdx_map_snd]
    exact List.pairwise_lt_range'
  exact List.pairwise_map.mp positions

/-- The issues of hints, entry by entry, are those of each position and of what stands behind it. -/
theorem shortcutIssuesOf_eq_flatMap (menu : String) (entries : List (Entry Menu)) :
    shortcutIssuesOf menu entries = entries.zipIdx.flatMap fun placed =>
      placed.1.shortcutIssues menu (entries.drop (placed.2 + 1)) := by
  induction entries with
  | nil => rfl
  | cons entry later inductionHypothesis =>
    rw [shortcutIssuesOf, inductionHypothesis, List.zipIdx_cons', List.flatMap_cons, List.flatMap_map]
    rfl

namespace Registry

/-- What is to be reported of the references of a template. -/
def placedReferences (registry : Registry) (template : Nat) (source : Menu) :
    List (Defect × TemplateIssue) :=
  source.entries.zipIdx.filterMap fun placed =>
    (registry.unresolved? source.name placed.1).map (Defect.dangling template placed.2, ·)

/-- What is to be reported of the hints of a template. -/
def placedHints (template : Nat) (source : Menu) : List (Defect × TemplateIssue) :=
  source.entries.zipIdx.flatMap fun placed =>
    placed.1.placedIssues template source.name placed.2 (source.entries.drop (placed.2 + 1))

/-- What is to be reported of a template. -/
def placedIn (registry : Registry) (template : Nat) (source : Menu) :
    List (Defect × TemplateIssue) :=
  registry.placedReferences template source ++ placedHints template source

/-- What is to be reported of all templates. -/
def placed (registry : Registry) : List (Defect × TemplateIssue) :=
  registry.sources.zipIdx.flatMap fun placed => registry.placedIn placed.2 placed.1

variable {registry : Registry}

/-- Without their places, these are the issues of a template. -/
theorem map_snd_placedIn (registry : Registry) (template : Nat) (source : Menu) :
    (registry.placedIn template source).map Prod.snd = registry.issuesOf source := by
  rw [placedIn, issuesOf, List.map_append]
  refine congrArg₂ _ ?_ ?_
  · calc
      _ = source.entries.zipIdx.filterMap (registry.unresolved? source.name ∘ Prod.fst) := by
        rw [placedReferences, List.map_filterMap]
        simp [Function.comp_def]
      _ = _ := by rw [← List.filterMap_map, List.zipIdx_map_fst]
  · rw [placedHints, Menu.shortcutIssues, shortcutIssuesOf_eq_flatMap, List.map_flatMap,
      List.map_flatMap]
    apply List.flatMap_congr
    intro placed _
    exact placed.1.map_snd_placedIssues template source.name placed.2 _

/-- Without their places, these are the issues of the check. -/
theorem map_snd_placed (registry : Registry) : registry.placed.map Prod.snd = registry.check := by
  calc
    _ = registry.sources.zipIdx.flatMap fun placed => registry.issuesOf placed.1 := by
      rw [placed, List.map_flatMap]
      apply List.flatMap_congr
      intro placed _
      exact registry.map_snd_placedIn placed.2 placed.1
    _ = (registry.sources.zipIdx.map Prod.fst).flatMap registry.issuesOf := by
      rw [List.flatMap_map]
    _ = registry.check := by rw [List.zipIdx_map_fst, check]

/-- What is found in the list of the references of a template. -/
theorem mem_placedReferences_iff {template : Nat} {source : Menu} {defect : Defect}
    {issue : TemplateIssue} :
    (defect, issue) ∈ registry.placedReferences template source ↔
      ∃ position entry name, source.entries[position]? = some entry ∧
        registry.Dangles entry name ∧ defect = .dangling template position ∧
        issue = .unresolvedSubmenu source.name entry.text name := by
  rw [placedReferences, List.mem_filterMap]
  constructor
  · rintro ⟨⟨entry, position⟩, stands, found⟩
    obtain ⟨reported, unresolved, same⟩ := Option.map_eq_some_iff.mp found
    obtain ⟨name, dangles, rfl⟩ := unresolved?_eq_some_iff.mp unresolved
    cases same
    exact ⟨position, entry, name, List.mk_mem_zipIdx_iff_getElem?.mp stands, dangles, rfl, rfl⟩
  · rintro ⟨position, entry, name, stands, dangles, rfl, rfl⟩
    have unresolved : registry.unresolved? source.name entry =
        some (.unresolvedSubmenu source.name entry.text name) :=
      unresolved?_eq_some_iff.mpr ⟨name, dangles, rfl⟩
    exact ⟨(entry, position), List.mk_mem_zipIdx_iff_getElem?.mpr stands, by rw [unresolved]; rfl⟩

end Registry

namespace Entry

/-- What is found in the list of the hint of an entry. -/
theorem mem_placedIssues_iff {template position : Nat} {menu : String} {entry : Entry Menu}
    {later : List (Entry Menu)} {defect : Defect} {issue : TemplateIssue} :
    (defect, issue) ∈ entry.placedIssues template menu position later ↔
      (entry.Misses ∧ defect = .missing template position ∧
          issue = .shortcut (.missing menu entry.text entry.shortcut)) ∨
        ∃ second other, position < second ∧ later[second - (position + 1)]? = some other ∧
          entry.Collides other ∧ defect = .shared template position second ∧
          issue = .shortcut (.duplicate menu entry.text other.text entry.shortcut) := by
  rw [placedIssues]
  cases hinted : entry.shortcut.isEmpty with
  | true => simp [misses_iff, collides_iff, hinted]
  | false =>
    simp only [misses_iff, collides_iff, hinted, true_and, Bool.false_eq_true, if_false,
      List.mem_append, List.mem_map, List.mem_filter, Prod.exists, Prod.mk.injEq,
      List.mk_mem_zipIdx_iff_le_and_getElem?_sub, Nat.succ_le_iff]
    apply or_congr
    · cases entry.lacksShortcut <;> simp
    · constructor
      · rintro ⟨other, second, ⟨⟨behind, stands⟩, shares⟩, rfl, rfl⟩
        exact ⟨second, other, behind, stands, shares, rfl, rfl⟩
      · rintro ⟨second, other, behind, stands, shares, rfl, rfl⟩
        exact ⟨other, second, ⟨⟨behind, stands⟩, shares⟩, rfl, rfl⟩

end Entry

namespace Registry

variable {registry : Registry}

/-- What is listed of a template are its defects with what is to be reported of them. -/
theorem mem_placedIn_iff {template : Nat} {source : Menu} {defect : Defect} {issue : TemplateIssue} :
    (defect, issue) ∈ registry.placedIn template source ↔
      registry.ReportsIn template source defect issue := by
  have behind {position second : Nat} (order : position < second) :
      (source.entries.drop (position + 1))[second - (position + 1)]? = source.entries[second]? := by
    rw [List.getElem?_drop, Nat.add_sub_cancel' order]
  constructor
  · intro member
    rcases List.mem_append.mp member with reference | hint
    · obtain ⟨position, entry, name, stands, dangles, rfl, rfl⟩ :=
        mem_placedReferences_iff.mp reference
      exact .dangling stands dangles
    · obtain ⟨⟨entry, position⟩, among, found⟩ := List.mem_flatMap.mp hint
      have stands := List.mk_mem_zipIdx_iff_getElem?.mp among
      rcases Entry.mem_placedIssues_iff.mp found with
        ⟨misses, rfl, rfl⟩ | ⟨second, other, order, later, collides, rfl, rfl⟩
      · exact .missing stands misses
      · exact .shared stands ((behind order).symm.trans later) order collides
  · have listed {position : Nat} {entry : Entry Menu}
        (stands : source.entries[position]? = some entry) {one : Defect × TemplateIssue}
        (found : one ∈ entry.placedIssues template source.name position
          (source.entries.drop (position + 1))) : one ∈ registry.placedIn template source :=
      List.mem_append_right _
        (List.mem_flatMap.mpr ⟨_, List.mk_mem_zipIdx_iff_getElem?.mpr stands, found⟩)
    intro reports
    cases reports with
    | dangling stands dangles =>
      apply List.mem_append_left
      exact mem_placedReferences_iff.mpr ⟨_, _, _, stands, dangles, rfl, rfl⟩
    | missing stands misses =>
      apply listed stands
      exact Entry.mem_placedIssues_iff.mpr (.inl ⟨misses, rfl, rfl⟩)
    | shared stands further order collides =>
      apply listed stands
      exact Entry.mem_placedIssues_iff.mpr
        (.inr ⟨_, _, order, (behind order).trans further, collides, rfl, rfl⟩)

/-- What is listed of all templates are the defects with what is to be reported of them. -/
theorem mem_placed_iff {defect : Defect} {issue : TemplateIssue} :
    (defect, issue) ∈ registry.placed ↔ registry.Reports defect issue := by
  rw [placed, List.mem_flatMap, Reports]
  constructor
  · rintro ⟨⟨source, template⟩, among, member⟩
    exact ⟨template, source, List.mk_mem_zipIdx_iff_getElem?.mp among, mem_placedIn_iff.mp member⟩
  · rintro ⟨template, source, found, reports⟩
    exact ⟨(source, template), List.mk_mem_zipIdx_iff_getElem?.mpr found, mem_placedIn_iff.mpr reports⟩

/-- One place is reported before the other. -/
def Earlier (one other : Defect × TemplateIssue) : Prop := one.1.key < other.1.key

/-- Where the first numbers of two places differ, the smaller one decides. -/
theorem earlier_of_lt (front : List Nat) {one other : Defect × TemplateIssue}
    {first second : List Nat} {m n : Nat} (left : one.1.key = front ++ m :: first)
    (right : other.1.key = front ++ n :: second) (less : m < n) : Earlier one other := by
  rw [Earlier, left, right]
  exact List.append_left_lt (List.cons_lt_cons_iff.mpr (.inl less))

/-- The references of a template are reported in order. -/
theorem pairwise_placedReferences (registry : Registry) (template : Nat) (source : Menu) :
    (registry.placedReferences template source).Pairwise Earlier := by
  rw [placedReferences, List.pairwise_filterMap]
  apply (pairwise_zipIdx source.entries 0).imp
  rintro ⟨entry, position⟩ ⟨other, behind⟩ order one found another foundBehind
  obtain ⟨_, _, rfl⟩ := Option.map_eq_some_iff.mp found
  obtain ⟨_, _, rfl⟩ := Option.map_eq_some_iff.mp foundBehind
  exact earlier_of_lt [template, 0] rfl rfl order

/-- The issues of a hint stand at the place of its entry. -/
theorem key_of_mem_placedIssues {template position : Nat} {menu : String} {entry : Entry Menu}
    {later : List (Entry Menu)} {one : Defect × TemplateIssue}
    (member : one ∈ entry.placedIssues template menu position later) :
    ∃ rest, one.1.key = [template, 1] ++ position :: rest := by
  rcases Entry.mem_placedIssues_iff.mp member with ⟨_, same, _⟩ | ⟨second, _, _, _, _, same, _⟩
  · exact ⟨[], by rw [same]; rfl⟩
  · exact ⟨[second], by rw [same]; rfl⟩

/-- The issues of a hint are reported in order. -/
theorem pairwise_placedIssues (template position : Nat) (menu : String) (entry : Entry Menu)
    (later : List (Entry Menu)) :
    (entry.placedIssues template menu position later).Pairwise Earlier := by
  have shared : (((later.zipIdx (position + 1)).filter fun other =>
      entry.sharesShortcut other.1).map fun other =>
        (Defect.shared template position other.2, TemplateIssue.shortcut
          (.duplicate menu entry.text other.1.text entry.shortcut))).Pairwise Earlier := by
    rw [List.pairwise_map]
    apply ((pairwise_zipIdx later (position + 1)).filter _).imp
    intro one other order
    exact earlier_of_lt [template, 1, position] rfl rfl order
  rw [Entry.placedIssues]
  split
  · exact .nil
  · split
    · refine List.pairwise_cons.mpr ⟨?_, shared⟩
      intro one member
      obtain ⟨other, _, rfl⟩ := List.mem_map.mp member
      -- the place of the entry is the beginning of the place of the pair
      show [template, 1, position] < [template, 1, position, other.2]
      simp
    · exact shared

/-- The hints of a template are reported in order. -/
theorem pairwise_placedHints (template : Nat) (source : Menu) :
    (placedHints template source).Pairwise Earlier := by
  rw [placedHints, List.pairwise_flatMap]
  constructor
  · intro placed _
    exact pairwise_placedIssues _ _ _ _ _
  · apply (pairwise_zipIdx source.entries 0).imp
    intro placed behind order one member other further
    obtain ⟨_, left⟩ := key_of_mem_placedIssues member
    obtain ⟨_, right⟩ := key_of_mem_placedIssues further
    exact earlier_of_lt [template, 1] left right order

/-- The issues of a template have its number in front. -/
theorem key_of_mem_placedIn {template : Nat} {source : Menu} {one : Defect × TemplateIssue}
    (member : one ∈ registry.placedIn template source) : ∃ rest, one.1.key = [] ++ template :: rest := by
  rcases List.mem_append.mp member with reference | hint
  · obtain ⟨position, _, _, _, _, same, _⟩ := mem_placedReferences_iff.mp reference
    exact ⟨[0, position], by rw [same]; rfl⟩
  · obtain ⟨placed, _, among⟩ := List.mem_flatMap.mp hint
    obtain ⟨rest, key⟩ := key_of_mem_placedIssues among
    exact ⟨1 :: placed.2 :: rest, key⟩

/-- The issues of a template are reported in order. -/
theorem pairwise_placedIn (registry : Registry) (template : Nat) (source : Menu) :
    (registry.placedIn template source).Pairwise Earlier := by
  rw [placedIn, List.pairwise_append]
  refine ⟨registry.pairwise_placedReferences template source, pairwise_placedHints template source, ?_⟩
  intro one reference other hint
  obtain ⟨position, _, _, _, _, same, _⟩ := mem_placedReferences_iff.mp reference
  obtain ⟨placed, _, among⟩ := List.mem_flatMap.mp hint
  obtain ⟨rest, key⟩ := key_of_mem_placedIssues among
  exact earlier_of_lt [template] (by rw [same]; rfl) key Nat.zero_lt_one

/-- The issues of all templates are reported in order. -/
theorem pairwise_placed (registry : Registry) : registry.placed.Pairwise Earlier := by
  rw [placed, List.pairwise_flatMap]
  constructor
  · intro placed _
    exact registry.pairwise_placedIn placed.2 placed.1
  · apply (pairwise_zipIdx registry.sources 0).imp
    intro source behind order one member other further
    obtain ⟨_, left⟩ := key_of_mem_placedIn member
    obtain ⟨_, right⟩ := key_of_mem_placedIn further
    exact earlier_of_lt [] left right order

end Registry

/-- The issue is that a hint does not occur in its label. -/
def ShortcutIssue.isMissing : ShortcutIssue → Bool
  | missing _ _ _ => true
  | duplicate _ _ _ _ => false

/-- The issue is that two entries have one hint. -/
def ShortcutIssue.isDuplicate (issue : ShortcutIssue) : Bool := !issue.isMissing

/-- The issue of a hint, if the issue is one. -/
def TemplateIssue.hint? : TemplateIssue → Option ShortcutIssue
  | unresolvedSubmenu _ _ _ => none
  | shortcut issue => some issue

instance (entry : Entry Menu) : Decidable entry.Misses :=
  decidable_of_iff _ Entry.misses_iff.symm

instance (entry other : Entry Menu) : Decidable (entry.Collides other) :=
  decidable_of_iff _ Entry.collides_iff.symm

/-- One issue says that the hint of an entry does not occur in its label. -/
theorem Entry.countP_isMissing (menu : String) (entry : Entry Menu) (later : List (Entry Menu)) :
    (entry.shortcutIssues menu later).countP ShortcutIssue.isMissing =
      if entry.Misses then 1 else 0 := by
  rw [shortcutIssues]
  cases hinted : entry.shortcut.isEmpty with
  | true => simp [misses_iff, hinted]
  | false =>
    have others : ((later.filter entry.sharesShortcut).map fun other =>
        ShortcutIssue.duplicate menu entry.text other.text entry.shortcut).countP
          ShortcutIssue.isMissing = 0 := by
      rw [List.countP_map, List.countP_eq_zero]
      intro other _ missing
      cases missing
    rw [if_neg Bool.false_ne_true, List.countP_append, others]
    simp only [misses_iff, hinted, true_and]
    split <;> rfl

/-- One issue for each entry behind an entry says that it has the same hint. -/
theorem Entry.countP_isDuplicate (menu : String) (entry : Entry Menu) (later : List (Entry Menu)) :
    (entry.shortcutIssues menu later).countP ShortcutIssue.isDuplicate =
      later.countP fun other => entry.Collides other := by
  rw [shortcutIssues]
  cases hinted : entry.shortcut.isEmpty with
  | true => simp [collides_iff, hinted]
  | false =>
    have others : ((later.filter entry.sharesShortcut).map fun other =>
        ShortcutIssue.duplicate menu entry.text other.text entry.shortcut).countP
          ShortcutIssue.isDuplicate = later.countP entry.sharesShortcut := by
      rw [List.countP_map, List.countP_eq_length_filter (p := entry.sharesShortcut)]
      exact List.countP_eq_length.mpr fun _ _ => rfl
    rw [if_neg Bool.false_ne_true, List.countP_append, others]
    simp only [collides_iff, hinted, true_and, Bool.decide_eq_true]
    split <;> simp [ShortcutIssue.isDuplicate, ShortcutIssue.isMissing]

/-- There is one missing hint for each entry whose hint does not occur in its label. -/
theorem countP_isMissing_shortcutIssuesOf (menu : String) (entries : List (Entry Menu)) :
    (shortcutIssuesOf menu entries).countP ShortcutIssue.isMissing =
      entries.countP fun entry => entry.Misses := by
  induction entries with
  | nil => rfl
  | cons entry later inductionHypothesis =>
    rw [shortcutIssuesOf, List.countP_append, entry.countP_isMissing, inductionHypothesis,
      List.countP_cons, Nat.add_comm]
    simp only [decide_eq_true_eq]

/-- An entry in front of others shares its hint with as many of them as have it. -/
theorem countP_isDuplicate_cons (menu : String) (entry : Entry Menu) (later : List (Entry Menu)) :
    (shortcutIssuesOf menu (entry :: later)).countP ShortcutIssue.isDuplicate =
      (later.countP fun other => entry.Collides other) +
        (shortcutIssuesOf menu later).countP ShortcutIssue.isDuplicate := by
  rw [shortcutIssuesOf, List.countP_append, entry.countP_isDuplicate]

/-- How many hints are shared does not depend on the order of the entries. -/
theorem countP_isDuplicate_perm (menu : String) {entries others : List (Entry Menu)}
    (reordered : entries.Perm others) :
    (shortcutIssuesOf menu entries).countP ShortcutIssue.isDuplicate =
      (shortcutIssuesOf menu others).countP ShortcutIssue.isDuplicate := by
  induction reordered with
  | nil => rfl
  | cons entry same inductionHypothesis =>
    rw [countP_isDuplicate_cons, countP_isDuplicate_cons, same.countP_eq, inductionHypothesis]
  | swap first second later =>
    have either : second.Collides first ↔ first.Collides second := ⟨.symm, .symm⟩
    simp only [countP_isDuplicate_cons, List.countP_cons, decide_eq_true_eq, either]
    omega
  | trans _ _ left right => exact left.trans right

namespace Registry

/-- The issues of hints among those of the check. -/
def hintIssues (registry : Registry) : List ShortcutIssue :=
  registry.check.filterMap TemplateIssue.hint?

/-- They are the issues of the templates. -/
theorem hintIssues_eq (registry : Registry) :
    registry.hintIssues = registry.sources.flatMap Menu.shortcutIssues := by
  have own (source : Menu) :
      (registry.issuesOf source).filterMap TemplateIssue.hint? = source.shortcutIssues := by
    have references : (source.entries.filterMap (registry.unresolved? source.name)).filterMap
        TemplateIssue.hint? = [] := by
      rw [List.filterMap_eq_nil_iff]
      intro issue member
      obtain ⟨entry, _, unresolved⟩ := List.mem_filterMap.mp member
      obtain ⟨name, _, rfl⟩ := unresolved?_eq_some_iff.mp unresolved
      rfl
    rw [issuesOf, List.filterMap_append, references, List.filterMap_map, List.nil_append]
    exact List.filterMap_some
  rw [hintIssues, check, List.filterMap_flatMap]
  apply List.flatMap_congr
  intro source _
  exact own source

end Registry

/-- The other menu has the same name and the same entries in any order. -/
structure Menu.Reorders (menu other : Menu) : Prop where
  name : other.name = menu.name
  entries : other.entries.Perm menu.entries

/-- The other registry has the same templates, each with its entries in any order. -/
def Registry.Reorders (registry other : Registry) : Prop :=
  List.Forall₂ Menu.Reorders registry.sources other.sources

/-- What is counted alike in menus whose entries are in another order is counted alike in all
templates. -/
theorem Registry.Reorders.countP_eq {registry other : Registry} (reorders : registry.Reorders other)
    {counted : ShortcutIssue → Bool}
    (alike : ∀ menu changed : Menu, menu.Reorders changed →
      changed.shortcutIssues.countP counted = menu.shortcutIssues.countP counted) :
    other.hintIssues.countP counted = registry.hintIssues.countP counted := by
  have counts : registry.sources.map (fun menu => menu.shortcutIssues.countP counted) =
      other.sources.map fun menu => menu.shortcutIssues.countP counted := by
    rw [← List.forall₂_eq_eq_eq, List.forall₂_map_left_iff, List.forall₂_map_right_iff]
    exact List.Forall₂.imp (fun menu changed same => (alike menu changed same).symm) reorders
  rw [hintIssues_eq, hintIssues_eq, List.countP_flatMap, List.countP_flatMap]
  exact congrArg List.sum counts.symm

/-- The check reports each defect of the templates once, with the names and texts that belong to it, and
reports nothing else: there is a list of defects with what is to be reported of them whose issues are
those of the check. Its places go up, the menubar first, then the menus in order, so no defect is in it
twice. A registry has no issues if and only if it has no defects. However the entries of menus are
reordered, as many hints do not occur in their labels and as many pairs of entries have one hint. -/
theorem check_reports_each_defect_once (registry : Registry) :
    (∃ placed : List (Defect × TemplateIssue),
      placed.map Prod.snd = registry.check ∧
        (placed.map Prod.fst).Nodup ∧
        placed.Pairwise (fun one other => one.1.key < other.1.key) ∧
        ∀ defect issue, (defect, issue) ∈ placed ↔ registry.Reports defect issue) ∧
      (registry.check = [] ↔ ∀ defect issue, ¬ registry.Reports defect issue) ∧
      ∀ other : Registry, registry.Reorders other →
        other.hintIssues.countP ShortcutIssue.isMissing =
            registry.hintIssues.countP ShortcutIssue.isMissing ∧
          other.hintIssues.countP ShortcutIssue.isDuplicate =
            registry.hintIssues.countP ShortcutIssue.isDuplicate := by
  refine ⟨⟨registry.placed, registry.map_snd_placed, ?_, registry.pairwise_placed,
    fun _ _ => Registry.mem_placed_iff⟩, ?_, ?_⟩
  · rw [List.nodup_iff_pairwise_ne, List.pairwise_map]
    apply registry.pairwise_placed.imp
    intro one other earlier same
    rw [Registry.Earlier, same] at earlier
    exact List.lt_irrefl _ earlier
  · rw [← registry.map_snd_placed, List.map_eq_nil_iff, List.eq_nil_iff_forall_not_mem]
    constructor
    · intro none defect issue reports
      exact none _ (Registry.mem_placed_iff.mpr reports)
    · intro none one member
      exact none _ _ (Registry.mem_placed_iff.mp member)
  · intro other reorders
    constructor
    · apply reorders.countP_eq
      intro menu changed same
      rw [Menu.shortcutIssues, Menu.shortcutIssues, countP_isMissing_shortcutIssuesOf,
        countP_isMissing_shortcutIssuesOf, same.entries.countP_eq]
    · apply reorders.countP_eq
      intro menu changed same
      rw [Menu.shortcutIssues, Menu.shortcutIssues, same.name,
        countP_isDuplicate_perm menu.name same.entries]

/-- A menubar with a reference that leads nowhere, and a menu in which three entries have one hint and one
of them writes it in a way that does not occur in its label. -/
def Registry.flawed : Registry where
  menubar := ⟨"", [.submenu "File|F" "file", .submenu "Lost|L" "lost"]⟩
  menus := [⟨"file", [.command "Open|n" (.ofMenu "open" ""), .separator,
    .command "Find|N" (.ofMenu "find" ""), .command "Run|n" (.ofMenu "run" "")]⟩]

/-- The same menus with the entries of the named one in the opposite order. -/
def Registry.flawedBackwards : Registry where
  menubar := Registry.flawed.menubar
  menus := Registry.flawed.menus.map fun menu => { menu with entries := menu.entries.reverse }

/-- Three entries with one hint make three pairs in either order. The order decides which of the two is
named first, and whose spelling is given. -/
theorem flawed_hints_are_counted_in_either_order :
    Registry.flawed.check =
        [.unresolvedSubmenu "" "Lost" "lost", .shortcut (.duplicate "file" "Open" "Find" "n"),
          .shortcut (.duplicate "file" "Open" "Run" "n"), .shortcut (.missing "file" "Find" "N"),
          .shortcut (.duplicate "file" "Find" "Run" "N")] ∧
      Registry.flawed.Reorders Registry.flawedBackwards ∧
      Registry.flawedBackwards.hintIssues.countP ShortcutIssue.isMissing = 1 ∧
      Registry.flawedBackwards.hintIssues.countP ShortcutIssue.isDuplicate = 3 := by
  have reorders : Registry.flawed.Reorders Registry.flawedBackwards :=
    .cons ⟨rfl, .refl _⟩ (.cons ⟨rfl, List.reverse_perm _⟩ .nil)
  obtain ⟨missing, duplicate⟩ :=
    (check_reports_each_defect_once Registry.flawed).2.2 Registry.flawedBackwards reorders
  refine ⟨by decide, reorders, ?_, ?_⟩
  · rw [missing]
    decide
  · rw [duplicate]
    decide

end Menus
