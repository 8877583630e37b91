import Menus.Context
import Menus.Runs
import Menus.Text.Comparison
import Menus.Text.Elision

/-!
# Menus of contents

The table of contents of a document is a list of headings with depths, possibly hundreds of them.
`Contents.partition` turns it into a menu that can be navigated. Up to a page of headings is shown
flat, deeper ones indented. More are divided into groups, each a heading and those behind it that are
deeper than the menu; a group of one is a command, a larger one a submenu that opens with its heading
and shows the rest in the same way one level down. Where no group has more than one member, the headings
are divided into pages instead.

A heading at the depth of its menu gets the next digit as accelerator hint if the digit already
occurs in its label. So the hints of a flat menu are handed out in order and none twice, and those of
the groups of a menu too. A page is labelled as if it were the first entry of its menu, so several pages
of one menu may have the hint 1.
-/

namespace Menus.Contents

/-- The most headings that are shown without being divided. -/
def pageSize : Nat := 25

/-- The length to which labels are elided. -/
def labelLimit : Nat := 45

/-- The most entries of a menu that get a digit as hint. -/
def numberedEntries : Nat := 9

/-- The kind of the list that holds the headings; all others hold floats. -/
def headingsKind : String := "tableofcontents"

/-- A label elided to its limit. -/
def limited (label : String) : String :=
  String.ofList (Text.elideEnd labelLimit label.toList)

/-- The text of a heading behind four blanks for each level below `depth`. Blanks beyond the limit
of labels cannot show, so no more are written than the limit needs to notice them. -/
def indented (depth : Int) (heading : Heading) : List Char :=
  List.replicate (min (4 * (heading.depth - depth).toNat) (labelLimit + 1)) ' ' ++
    heading.text.toList

/-- The decimal digit of a number below ten. -/
def digit (number : Nat) : List Char := (toString number).toList

/-- The label of a heading in a menu of the given depth when `used` hints have been handed out, and
how many have been afterwards. -/
def label (depth : Int) (used : Nat) (heading : Heading) : List Char × Nat :=
  let shown := Text.elideEnd labelLimit (indented depth heading)
  if heading.depth = depth ∧ used < numberedEntries ∧ Text.occursIn (digit (used + 1)) shown then
    (shown ++ '|' :: digit (used + 1), used + 1)
  else (shown, used)

/-- The labels of a run of headings, the hints handed out in order. -/
def labels (depth : Int) : Nat → List Heading → List String
  | _, [] => []
  | used, heading :: rest =>
    let (shown, usedNow) := label depth used heading
    String.ofList shown :: labels depth usedNow rest

/-- The least depth of a list of headings, but not less than `depth`. -/
def raise (depth : Int) (headings : List Heading) : Int :=
  match (headings.map Heading.depth).min? with
  | some least => max depth least
  | none => depth

/-- A heading and those behind it that are deeper than the menu. -/
structure Group where
  head : Heading
  below : List Heading

/-- The groups of a run of headings. The first heading opens one whatever its depth. -/
def groups (depth : Int) : List Heading → List Group
  | [] => []
  | head :: rest =>
    ⟨head, rest.takeWhile fun heading => depth < heading.depth⟩ ::
      groups depth (rest.dropWhile fun heading => depth < heading.depth)
termination_by headings => headings.length
decreasing_by
  exact Nat.lt_succ_of_le
    (List.dropWhile_sublist (l := rest) fun heading => decide (depth < heading.depth)).length_le

/-- A group holds fewer headings below its head than the run has. -/
theorem length_below_lt (depth : Int) (headings : List Heading) (group : Group)
    (member : group ∈ groups depth headings) : group.below.length < headings.length := by
  fun_induction groups depth headings with
  | case1 => simp at member
  | case2 head rest inductionHypothesis =>
    have kept := (List.takeWhile_sublist (l := rest)
      fun heading => decide (depth < heading.depth)).length_le
    have left := (List.dropWhile_sublist (l := rest)
      fun heading => decide (depth < heading.depth)).length_le
    rcases List.mem_cons.mp member with same | later
    · subst same
      exact Nat.lt_succ_of_le kept
    · have shorter := inductionHypothesis later
      simp only [List.length_cons]
      omega

/-- A command for a heading. -/
def command (label : String) (heading : Heading) : Entry Menu :=
  .enabledCommand label heading.request

/-- A submenu that holds some of the contents. It is enabled, since none is empty. -/
def submenu (label : String) (entries : List (Entry Menu)) : Entry Menu :=
  .opened label ⟨"", entries⟩ .enabled

/-- The command that opens the menu of a group: the heading itself, its label elided and neither
indented nor numbered. -/
def opening (heading : Heading) : Entry Menu :=
  command (limited heading.text) heading

/-- A run of headings shown flat, in a menu of the given depth. -/
def flat (depth : Int) (headings : List Heading) : List (Entry Menu) :=
  List.zipWith command (labels depth 0 headings) headings

/-- A page of headings that no group holds together. Its label is that of its first heading. -/
def page (depth : Int) (headings : List Heading) : Entry Menu :=
  let shown :=
    match headings with
    | [] => ""
    | first :: _ => String.ofList (label depth 0 first).1
  submenu shown (flat (raise depth headings) headings)

/-- The entries for a run of headings in a menu whose depth is at least `depth`. -/
def partition (depth : Int) (headings : List Heading) : List (Entry Menu) :=
  let depth := raise depth headings
  if headings.length ≤ pageSize then flat depth headings
  else
    let divided := groups depth headings
    if divided.all fun group => group.below.isEmpty then (runs pageSize headings).map (page depth)
    else
      List.zipWith
        (fun shown (group : { group // group ∈ groups depth headings }) =>
          if group.val.below.isEmpty then command shown group.val.head
          else submenu shown (opening group.val.head :: partition (depth + 1) group.val.below))
        (labels depth 0 (divided.map Group.head)) divided.attach
termination_by headings.length
decreasing_by exact length_below_lt _ _ _ group.property

/-- The entries for the headings from position `start` up to `stop`, or to the end of the list. A
range that ends before it starts has none. -/
def range (headings : List Heading) (start stop : Nat) (depth : Int) : List (Entry Menu) :=
  let stop := min stop headings.length
  if stop < start then []
  else partition depth ((headings.take stop).drop start)

/-- The submenu of a list of floats. It is named after the type where the document knows it, and
enabled where it holds anything. -/
def floatList (types : List FloatType) (list : ContentsList) : Entry Menu :=
  let shown :=
    match types.find? fun type => type.kind == list.kind with
    | some type => type.listName
    | none => list.kind
  .opened shown ⟨list.kind, list.items.map opening⟩
    (({} : Status).withEnabled !list.items.isEmpty)

/-- The contents of a document: the way to its master document, its lists of floats and its
headings. -/
def entries (document : Document) : List (Entry Menu) :=
  let master :=
    match document.master with
    | some request => [.enabledCommand "Master Document" request, .separator]
    | none => []
  let floats := document.contents.filter fun list => list.kind != headingsKind
  let headings :=
    match document.contents.find? fun list => list.kind == headingsKind with
    | some list => list.items
    | none => []
  master ++ floats.map (floatList document.floatTypes) ++
    if headings.isEmpty then [.placeholder "No Table of contents"] else partition 0 headings

end Menus.Contents
