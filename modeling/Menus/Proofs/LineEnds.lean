import Menus.Proofs.Lines
import Menus.Proofs.Omissions
import Menus.Proofs.Partition
import Menus.Proofs.Shortening

/-!
# Where the line ends of a printed tree come from

The texts of an expanded menu are those of its template and those the application reports. Numbers,
accelerator hints and the ellipsis of shortened texts have no line ends, and neither have the texts that
the lists bring along. So if no template, no report and no key binding has a line end, then a printed
tree has one line for each entry. But nothing takes a line end out of a text: a selection of two lines
in the clipboard breaks the line of its entry.
-/

namespace Menus

/-! ## Texts -/

@[simp] theorem oneLine_append (front rest : String) :
    OneLine (front ++ rest) ↔ OneLine front ∧ OneLine rest := by
  rw [OneLine, String.toList_append, List.mem_append, not_or]
  rfl

@[simp] theorem oneLine_ofList (text : List Char) : OneLine (String.ofList text) ↔ '\n' ∉ text := by
  rw [OneLine, String.toList_ofList]

/-- A number is written in digits. -/
theorem oneLine_number (number : Nat) : OneLine (toString number) := by
  intro inside
  have digits : (toString number).toList = Nat.toDigits 10 number := Nat.toList_repr
  rw [digits] at inside
  exact absurd (Nat.isDigit_of_mem_toDigits (by decide) (by decide) inside) (by decide)

theorem oneLine_numbered {number : Nat} {label : String} (oneLine : OneLine label) :
    OneLine (numbered number label) := by
  have parts : numbered number label =
      toString number ++ ". " ++ label ++ "|" ++ toString number := rfl
  have point : OneLine ". " := by decide
  have bar : OneLine "|" := by decide
  rw [parts]
  simp only [oneLine_append]
  exact ⟨⟨⟨⟨oneLine_number number, point⟩, oneLine⟩, bar⟩, oneLine_number number⟩

theorem oneLine_numberedAt {position : Nat} {label : String} (oneLine : OneLine label) :
    OneLine (numberedAt position label) := by
  rw [numberedAt]
  split
  · exact oneLine_numbered oneLine
  · exact oneLine

/-- A path does not start with a name. -/
theorem Path.start_ne_into (path name : List Char) : (Path.start path).1 ≠ some (.into name) := by
  unfold Path.start
  repeat' split
  all_goals
    intro same
    cases same

/-- A name in a path is a piece of the path. -/
theorem Path.fileName?_subset {path name : List Char} (named : Path.fileName? path = some name) :
    name ⊆ path := by
  rw [Path.fileName?] at named
  split at named
  · next last =>
    cases named
    have step := List.mem_of_getLast? last
    rw [Path.steps, List.mem_append, List.mem_filterMap] at step
    obtain opening | ⟨piece, member, takes⟩ := step
    · exact absurd (Option.mem_toList.mp opening) (Path.start_ne_into path name)
    · rw [Path.stepOf?] at takes
      split at takes
      · cases takes
      · split at takes <;> cases takes
        exact Path.mem_of_mem_pieces ((Path.start_suffix path).subset member)
  · cases named

/-- What is shown of a path has a line end only if the path has one. -/
theorem oneLine_display {home path : String} {limit : Nat} (roomy : 3 ≤ limit)
    (oneLine : OneLine path) : OneLine (Path.display home limit path) := by
  rw [Path.display, oneLine_ofList]
  intro inside
  cases Path.mem_of_mem_shortened (Path.shortened_shorten roomy _) inside with
  | inl inFull =>
    obtain inPath | other | other :=
      Path.mem_of_mem_abbreviated (Path.abbreviated_abbreviateHome _ _) inFull
    · exact oneLine inPath
    · exact absurd other (by decide)
    · exact absurd other (by decide)
  | inr dot => exact absurd dot (by decide)

/-- Names that tell paths apart have line ends only if the paths have. -/
theorem oneLine_of_mem_shortNames {home label : String} {limit : Nat} {paths : List String}
    (roomy : 3 ≤ limit) (oneLine : ∀ path ∈ paths, OneLine path)
    (member : label ∈ shortNames home limit paths) : OneLine label := by
  rw [shortNames] at member
  split at member
  · obtain ⟨name, isName, rfl⟩ := List.mem_map.mp member
    obtain ⟨named, among, same⟩ := List.mem_filterMap.mp isName
    obtain ⟨path, isPath, rfl⟩ := List.mem_map.mp among
    rw [oneLine_ofList]
    exact fun inside => oneLine path isPath (Path.fileName?_subset same inside)
  · obtain ⟨path, isPath, rfl⟩ := List.mem_map.mp member
    exact oneLine_display roomy (oneLine path isPath)

/-- A request of two texts without line ends is shown without one. -/
theorem oneLine_ofMenu {action argument : String} (known : OneLine action)
    (oneLine : OneLine argument) : OneLine (Request.ofMenu action argument).display := by
  rw [Request.display]
  split
  · exact known
  · have blank : OneLine " " := by decide
    simp only [Request.ofMenu, oneLine_append]
    exact ⟨⟨known, blank⟩, oneLine⟩

/-! ## Entries -/

/-- The texts of an entry have no line ends. -/
structure Entry.OneLine (entry : Entry Menu) : Prop where
  label : Menus.OneLine entry.label
  request : ∀ request, entry.request? = some request → Menus.OneLine request.display

/-- No text in a tree has a line end. -/
def Menu.OneLine (menu : Menu) : Prop :=
  menu.Everywhere fun inner => ∀ entry ∈ inner.entries, entry.OneLine

/-- No text of the entry, or of the tree below it, has a line end. -/
structure Entry.OneLineBelow (entry : Entry Menu) : Prop where
  own : entry.OneLine
  below : ∀ child, entry.child? = some child → child.OneLine

/-- A tree is free of line ends if each entry on top is. -/
theorem Menu.oneLine_of_entries {menu : Menu} (each : ∀ entry ∈ menu.entries, entry.OneLineBelow) :
    menu.OneLine := by
  apply Menu.everywhere_of_children
  · exact fun entry member => (each entry member).own
  · exact fun entry member => (each entry member).below

namespace Entry

/-- A command has no tree below it. -/
theorem oneLineBelow_of_command {entry : Entry Menu} {request : Request}
    (runs : entry.kind = .command request) (label : Menus.OneLine entry.label)
    (asks : Menus.OneLine request.display) : entry.OneLineBelow := by
  refine ⟨⟨label, ?_⟩, ?_⟩
  · intro other same
    rw [request?, runs] at same
    cases same
    exact asks
  · intro child attached
    rw [child?, runs] at attached
    cases attached

theorem oneLineBelow_enabledCommand {label : String} {request : Request}
    (oneLine : Menus.OneLine label) (asks : Menus.OneLine request.display) :
    (enabledCommand label request).OneLineBelow :=
  oneLineBelow_of_command rfl oneLine asks

theorem oneLineBelow_placeholder {label : String} (oneLine : Menus.OneLine label) :
    ∀ entry ∈ [placeholder label], entry.OneLineBelow :=
  List.forall_mem_singleton.mpr (oneLineBelow_of_command rfl oneLine (by decide))

/-- Only kind and label of an entry have texts. -/
theorem OneLineBelow.of_same {entry other : Entry Menu} (oneLine : entry.OneLineBelow)
    (kind : other.kind = entry.kind) (label : other.label = entry.label) : other.OneLineBelow := by
  obtain ⟨⟨named, asks⟩, below⟩ := oneLine
  refine ⟨⟨?_, ?_⟩, ?_⟩
  · rw [label]
    exact named
  · rw [request?, kind]
    exact asks
  · rw [child?, kind]
    exact below

/-- The status policy changes no label. -/
theorem label_of_kept {statusOf : Request → Status} {entry left : Entry Menu}
    (result : entry.kept? statusOf = some left) : left.label = entry.label := by
  rw [kept?] at result
  split at result
  · dsimp only at result
    split at result
    · cases result
    · rw [← Option.some.inj result]
  · split at result
    · cases result
    · rw [← Option.some.inj result]
  · rw [Option.some.inj result]

end Entry

/-! ## What the application reports -/

/-- The texts of a format have no line ends. -/
structure Format.OneLine (format : Format) : Prop where
  name : Menus.OneLine format.name
  prettyName : Menus.OneLine format.prettyName
  shortcut : Menus.OneLine format.shortcut

/-- The text of a heading and its request have no line ends. -/
structure Heading.OneLine (heading : Heading) : Prop where
  text : Menus.OneLine heading.text
  request : Menus.OneLine heading.request.display

/-- The texts that a document has for menus have no line ends. -/
structure Document.OneLine (document : Document) : Prop where
  kinds : ∀ list ∈ document.contents, Menus.OneLine list.kind
  headings : ∀ list ∈ document.contents, ∀ heading ∈ list.items, heading.OneLine
  floatKinds : ∀ type ∈ document.floatTypes, Menus.OneLine type.kind
  floatNames : ∀ type ∈ document.floatTypes, Menus.OneLine type.name
  floatLists : ∀ type ∈ document.floatTypes, Menus.OneLine type.listName
  insets : ∀ layout ∈ document.insetLayouts, Menus.OneLine layout.name
  branches : ∀ branch ∈ document.branches, Menus.OneLine branch
  formats : ∀ viewable, ∀ format ∈ document.exportable viewable, format.OneLine
  master : ∀ request, document.master = some request → Menus.OneLine request.display

/-- The texts that the application reports have no line ends. -/
structure Context.OneLine (context : Context) : Prop where
  lastFiles : ∀ path ∈ context.lastFiles, Menus.OneLine path
  bookmarks : ∀ bookmark ∈ context.bookmarks, Menus.OneLine bookmark.path
  documents : ∀ document ∈ context.documents, Menus.OneLine document.path
  importable : ∀ format ∈ context.importable, format.OneLine
  toolbars : ∀ toolbar ∈ context.toolbars, Menus.OneLine toolbar.name
  toolbarNames : ∀ toolbar ∈ context.toolbars, Menus.OneLine toolbar.prettyName
  selections : ∀ selection ∈ context.selections, Menus.OneLine selection
  document : ∀ document, context.document = some document → document.OneLine

/-! ## Contents -/

namespace Contents

theorem not_mem_elideEnd {limit : Nat} {text : List Char} (oneLine : '\n' ∉ text) :
    '\n' ∉ Text.elideEnd limit text := by
  rw [Text.elideEnd]
  split
  · exact oneLine
  · rw [List.mem_append, not_or]
    exact ⟨fun inside => oneLine (List.mem_of_mem_take inside), by decide⟩

/-- Labels of headings are blanks, the text of the heading, the ellipsis and a number. -/
theorem not_mem_label {heading : Heading} (oneLine : heading.OneLine) (depth : Int) (used : Nat) :
    '\n' ∉ (label depth used heading).1 := by
  have shown : '\n' ∉ Text.elideEnd labelLimit (indented depth heading) := by
    apply not_mem_elideEnd
    rw [indented, List.mem_append, not_or]
    exact ⟨fun inside => absurd (List.eq_of_mem_replicate inside) (by decide), oneLine.text⟩
  rw [label]
  split
  · rw [List.mem_append, List.mem_cons, not_or, not_or]
    exact ⟨shown, by decide, oneLine_number (used + 1)⟩
  · exact shown

theorem oneLine_of_mem_labels {headings : List Heading} (oneLine : ∀ heading ∈ headings, heading.OneLine)
    (depth : Int) (used : Nat) : ∀ shown ∈ labels depth used headings, OneLine shown := by
  induction headings generalizing used with
  | nil => exact fun shown absent => absurd absent List.not_mem_nil
  | cons heading rest inductionHypothesis =>
    obtain ⟨first, others⟩ := List.forall_mem_cons.mp oneLine
    rw [labels, List.forall_mem_cons, oneLine_ofList]
    exact ⟨not_mem_label first depth used, inductionHypothesis others _⟩

theorem oneLineBelow_opening {heading : Heading} (oneLine : heading.OneLine) :
    (opening heading).OneLineBelow := by
  refine Entry.oneLineBelow_enabledCommand ?_ oneLine.request
  rw [limited, oneLine_ofList]
  exact not_mem_elideEnd oneLine.text

theorem oneLineBelow_flat {headings : List Heading} (oneLine : ∀ heading ∈ headings, heading.OneLine)
    (depth : Int) : ∀ entry ∈ flat depth headings, entry.OneLineBelow := by
  intro entry member
  rw [flat, ← List.map_uncurry_zip_eq_zipWith] at member
  obtain ⟨⟨shown, heading⟩, paired, rfl⟩ := List.mem_map.mp member
  obtain ⟨isLabel, isHeading⟩ := List.of_mem_zip paired
  exact Entry.oneLineBelow_enabledCommand (oneLine_of_mem_labels oneLine depth 0 shown isLabel)
    (oneLine heading isHeading).request

theorem oneLineBelow_submenu {label : String} {entries : List (Entry Menu)} (oneLine : OneLine label)
    (inside : ∀ entry ∈ entries, entry.OneLineBelow) : (submenu label entries).OneLineBelow := by
  refine ⟨⟨oneLine, fun request asks => nomatch asks⟩, ?_⟩
  intro child attached
  cases attached
  exact Menu.oneLine_of_entries inside

theorem oneLineBelow_page {headings : List Heading} (oneLine : ∀ heading ∈ headings, heading.OneLine)
    (depth : Int) : (page depth headings).OneLineBelow := by
  refine oneLineBelow_submenu ?_ (oneLineBelow_flat oneLine _)
  cases headings with
  | nil => exact (by decide : OneLine "")
  | cons first rest =>
    rw [oneLine_ofList]
    exact not_mem_label (oneLine first List.mem_cons_self) depth 0

/-- The menus that headings are divided into have no other texts. -/
theorem oneLineBelow_partition {depth : Int} {headings : List Heading}
    (oneLine : ∀ heading ∈ headings, heading.OneLine) :
    ∀ entry ∈ partition depth headings, entry.OneLineBelow := by
  intro entry member
  fun_induction partition depth headings generalizing entry with
  | case1 => exact oneLineBelow_flat oneLine _ entry member
  | case2 =>
    rename_i headings _ _ _ _
    obtain ⟨chunk, among, rfl⟩ := List.mem_map.mp member
    refine oneLineBelow_page ?_ _
    intro heading inside
    apply oneLine
    rw [← flatten_runs pageSize headings (by decide)]
    exact List.mem_flatten.mpr ⟨chunk, among, inside⟩
  | case3 =>
    rename_i headings depth _ divided _ inductionHypothesis
    have inGroup (group : Group) (among : group ∈ groups depth headings) :
        ∀ heading ∈ group.headings, heading.OneLine := by
      intro heading inside
      apply oneLine
      rw [← flatMap_groups depth headings]
      exact List.mem_flatMap.mpr ⟨group, among, inside⟩
    have heads : ∀ heading ∈ divided.map Group.head, heading.OneLine := by
      rw [List.forall_mem_map]
      exact fun group among => inGroup group among group.head List.mem_cons_self
    rw [← List.map_uncurry_zip_eq_zipWith] at member
    obtain ⟨⟨shown, group⟩, paired, rfl⟩ := List.mem_map.mp member
    have named := oneLine_of_mem_labels heads depth 0 shown (List.of_mem_zip paired).1
    obtain ⟨head, below⟩ := List.forall_mem_cons.mp (inGroup group.val group.property)
    rw [Function.uncurry_apply_pair]
    split
    · exact Entry.oneLineBelow_enabledCommand named head.request
    · refine oneLineBelow_submenu named ?_
      rw [List.forall_mem_cons]
      exact ⟨oneLineBelow_opening head, inductionHypothesis group below⟩

theorem oneLineBelow_floatList {document : Document} (oneLine : document.OneLine) {list : ContentsList}
    (member : list ∈ document.contents) :
    (floatList document.floatTypes list).OneLineBelow := by
  refine ⟨⟨?_, fun request asks => nomatch asks⟩, ?_⟩
  · rw [floatList]
    dsimp only [Entry.opened]
    split
    · next type found => exact oneLine.floatLists type (List.mem_of_find?_eq_some found)
    · exact oneLine.kinds list member
  · intro child attached
    cases attached
    apply Menu.oneLine_of_entries
    rw [List.forall_mem_map]
    exact fun heading inside => oneLineBelow_opening (oneLine.headings list member heading inside)

theorem oneLineBelow_entries {document : Document} (oneLine : document.OneLine) :
    ∀ entry ∈ entries document, entry.OneLineBelow := by
  have divided {headings : List Heading} (each : ∀ heading ∈ headings, heading.OneLine) :
      ∀ entry ∈ if headings.isEmpty then [.placeholder "No Table of contents"]
        else partition 0 headings, entry.OneLineBelow := by
    split
    · exact Entry.oneLineBelow_placeholder (by decide)
    · exact oneLineBelow_partition each
  rw [entries, List.forall_mem_append, List.forall_mem_append]
  refine ⟨⟨?_, ?_⟩, ?_⟩
  · split
    · next request isMaster =>
      rw [List.forall_mem_cons, List.forall_mem_singleton]
      refine ⟨Entry.oneLineBelow_enabledCommand (by decide) (oneLine.master request isMaster), ?_⟩
      refine ⟨⟨by decide, fun request asks => ?_⟩, fun child attached => ?_⟩
      · cases asks
      · cases attached
    · exact fun entry absent => absurd absent List.not_mem_nil
  · rw [List.forall_mem_map]
    exact fun list member => oneLineBelow_floatList oneLine (List.mem_of_mem_filter member)
  · apply divided
    split
    · next list found => exact oneLine.headings list (List.mem_of_find?_eq_some found)
    · exact fun heading absent => absurd absent List.not_mem_nil

end Contents

/-! ## Generated lists -/

section Lists

variable {context : Context}

theorem Context.oneLineBelow_withDocument (oneLine : context.OneLine)
    {entries : Document → List (Entry Menu)}
    (each : ∀ document, document.OneLine → ∀ entry ∈ entries document, entry.OneLineBelow) :
    ∀ entry ∈ context.withDocument entries, entry.OneLineBelow := by
  rw [withDocument]
  split
  · next document isDocument => exact each document (oneLine.document document isDocument)
  · exact Entry.oneLineBelow_placeholder (by decide)

theorem Context.oneLineBelow_kept {entries : List (Entry Menu)}
    (each : ∀ entry ∈ entries, entry.OneLineBelow) :
    ∀ entry ∈ context.kept entries, entry.OneLineBelow := by
  intro entry member
  obtain ⟨source, among, result⟩ := List.mem_filterMap.mp member
  exact (each source among).of_same (Entry.kind_of_kept result) (Entry.label_of_kept result)

theorem Context.oneLineBelow_lastFileEntries (oneLine : context.OneLine) :
    ∀ entry ∈ context.lastFileEntries, entry.OneLineBelow := by
  have paths : ∀ path ∈ context.lastFiles.take numberedEntries, Menus.OneLine path :=
    fun path among => oneLine.lastFiles path (List.mem_of_mem_take among)
  rw [lastFileEntries, List.forall_mem_map]
  rintro ⟨⟨path, label⟩, position⟩ member
  obtain ⟨isPath, isLabel⟩ := List.of_mem_zip (List.fst_mem_of_mem_zipIdx member)
  refine Entry.oneLineBelow_enabledCommand ?_ (oneLine_ofMenu (by decide) (paths path isPath))
  exact oneLine_numbered (oneLine_of_mem_shortNames (by decide) paths isLabel)

theorem Context.oneLineBelow_documentEntries (oneLine : context.OneLine) :
    ∀ entry ∈ context.documentEntries, entry.OneLineBelow := by
  have paths : ∀ path ∈ context.documents.map OpenDocument.path, Menus.OneLine path := by
    rw [List.forall_mem_map]
    exact oneLine.documents
  have star : Menus.OneLine "*" := by decide
  rw [documentEntries]
  split
  · exact Entry.oneLineBelow_placeholder (by decide)
  · rw [List.forall_mem_map]
    rintro ⟨⟨document, label⟩, position⟩ member
    obtain ⟨isDocument, isLabel⟩ := List.of_mem_zip (List.fst_mem_of_mem_zipIdx member)
    have named := oneLine_of_mem_shortNames (by decide) paths isLabel
    refine Entry.oneLineBelow_enabledCommand (oneLine_numberedAt ?_)
      (oneLine_ofMenu (by decide) (oneLine.documents document isDocument))
    split
    · exact named
    · exact (oneLine_append _ _).mpr ⟨named, star⟩

theorem FormatUse.oneLine_labelOf {format : Format} (oneLine : format.OneLine) (purpose : FormatUse) :
    OneLine (purpose.labelOf format) := by
  have named : OneLine (purpose.nameOf format) := by
    have dots : OneLine "..." := by decide
    rw [nameOf]
    split
    · refine (oneLine_append _ _).mpr ⟨?_, dots⟩
      split
      · decide
      · split
        · decide
        · exact oneLine.prettyName
    · exact oneLine.prettyName
  have bar : OneLine "|" := by decide
  rw [labelOf]
  split
  · exact named
  · simp only [oneLine_append]
    exact ⟨⟨named, bar⟩, oneLine.shortcut⟩

theorem FormatUse.oneLineBelow_entries (oneLine : context.OneLine) (purpose : FormatUse) :
    ∀ entry ∈ purpose.entries context, entry.OneLineBelow := by
  have reported (formats : List Format) (known : purpose.reported? context = some formats) :
      ∀ format ∈ formats, format.OneLine := by
    have ofDocument (viewable : Bool) (known : (context.document.map fun document =>
        document.exportable viewable) = some formats) : ∀ format ∈ formats, format.OneLine := by
      obtain ⟨document, isDocument, rfl⟩ := Option.map_eq_some_iff.mp known
      exact (oneLine.document document isDocument).formats viewable
    cases purpose with
    | viewing => exact ofDocument true known
    | updating => exact ofDocument true known
    | exporting => exact ofDocument false known
    | importing =>
      cases known
      exact oneLine.importable
  rw [entries]
  split
  · exact Entry.oneLineBelow_placeholder (by decide)
  · next formats known =>
    have commands : ∀ entry ∈ (sorted (formats.filter purpose.offers)).map purpose.command,
        entry.OneLineBelow := by
      rw [List.forall_mem_map]
      intro format member
      have each := reported formats known format
        (List.mem_of_mem_filter (List.mem_mergeSort.mp member))
      refine Entry.oneLineBelow_of_command rfl (oneLine_labelOf each purpose) ?_
      exact oneLine_ofMenu (by cases purpose <;> decide) each.name
    split
    · exact Context.oneLineBelow_kept commands
    · rw [List.forall_mem_map]
      exact fun entry member => (commands entry member).of_same rfl rfl

/-- Whatever a generator lists, its texts are those the application reports. -/
theorem Generator.oneLineBelow_entries (oneLine : context.OneLine) (generator : Generator) :
    ∀ entry ∈ generator.entries context, entry.OneLineBelow := by
  cases generator with
  | lastFiles => exact context.oneLineBelow_lastFileEntries oneLine
  | documents => exact context.oneLineBelow_documentEntries oneLine
  | bookmarks =>
    rw [entries, Context.bookmarkEntries, List.forall_mem_map]
    intro bookmark member
    refine Entry.oneLineBelow_enabledCommand ?_ (oneLine_ofMenu (by decide) (oneLine_number _))
    exact oneLine_numbered (oneLine_display (by decide) (oneLine.bookmarks bookmark member))
  | contents =>
    exact context.oneLineBelow_withDocument oneLine fun document => Contents.oneLineBelow_entries
  | formats purpose => exact purpose.oneLineBelow_entries oneLine
  | insets family =>
    refine context.oneLineBelow_withDocument oneLine fun document reported => ?_
    rw [List.forall_mem_map]
    intro layout member
    have named := reported.insets layout (List.mem_of_mem_filter member)
    exact Entry.oneLineBelow_enabledCommand named (oneLine_ofMenu (by decide) named)
  | floatLists =>
    refine context.oneLineBelow_withDocument oneLine fun document reported => ?_
    apply Context.oneLineBelow_kept
    rw [List.forall_mem_map]
    intro type member
    exact Entry.oneLineBelow_of_command rfl (reported.floatLists type member)
      (oneLine_ofMenu (by decide) (reported.floatKinds type member))
  | floats =>
    refine context.oneLineBelow_withDocument oneLine fun document reported => ?_
    apply Context.oneLineBelow_kept
    rw [List.forall_mem_map]
    intro type member
    exact Entry.oneLineBelow_of_command rfl (reported.floatNames type member)
      (oneLine_ofMenu (by decide) (reported.floatKinds type member))
  | pasteRecent =>
    rw [entries, Context.pasteEntries]
    split
    · exact fun entry absent => absurd absent List.not_mem_nil
    · rw [List.forall_mem_map]
      rintro ⟨selection, position⟩ member
      exact Entry.oneLineBelow_enabledCommand
        (oneLine.selections selection (List.fst_mem_of_mem_zipIdx member))
        (oneLine_ofMenu (by decide) (oneLine_number position))
  | toolbars =>
    rw [entries, Context.toolbarEntries, List.forall_mem_map]
    intro toolbar member
    have named := oneLine.toolbarNames toolbar member
    have mark : OneLine " (auto)" := by decide
    refine Entry.oneLineBelow_of_command rfl ?_
      (oneLine_ofMenu (by decide) (oneLine.toolbars toolbar member))
    dsimp only [Entry.command]
    split
    · exact (oneLine_append _ _).mpr ⟨named, mark⟩
    · exact named
  | branches =>
    refine context.oneLineBelow_withDocument oneLine fun document reported => ?_
    split
    · exact Entry.oneLineBelow_placeholder (by decide)
    · apply Context.oneLineBelow_kept
      rw [List.forall_mem_map]
      rintro ⟨branch, position⟩ member
      have named := reported.branches branch (List.fst_mem_of_mem_zipIdx member)
      exact Entry.oneLineBelow_of_command rfl (oneLine_numberedAt named)
        (oneLine_ofMenu (by decide) named)

end Lists

/-! ## Expanded menus -/

namespace Registry

variable {registry : Registry} {context : Context} {chain : List String}

/-- The texts of the registered templates have no line ends. -/
def OneLine (registry : Registry) : Prop :=
  ∀ template ∈ registry.menus, ∀ entry ∈ template.entries, entry.OneLine

/-- What an entry of a template gives has the texts of the entry, or those the application reports. -/
theorem oneLine_of_mem_share (reported : context.OneLine) {origin kept : Entry Menu}
    {share : List (Entry Menu)} (oneLine : origin.OneLine)
    (shared : registry.share? context chain origin = some share) (member : kept ∈ share) :
    kept.OneLineBelow ∨ kept.OneLine ∧ ∃ name, origin.target? = some name := by
  cases kind : origin.kind with
  | command request =>
    have asks : Menus.OneLine request.display :=
      oneLine.request request (by rw [Entry.request?, kind])
    simp only [share?, kind] at shared
    split at shared <;> cases shared
    · exact absurd member List.not_mem_nil
    · cases List.mem_singleton.mp member
      exact .inl (Entry.oneLineBelow_of_command rfl oneLine.label asks)
  | submenu name former =>
    simp only [share?, kind] at shared
    obtain ⟨child, _, rfl⟩ := Option.map_eq_some_iff.mp shared
    split at member
    · exact absurd member List.not_mem_nil
    · cases List.mem_singleton.mp member
      refine .inr ⟨⟨oneLine.label, fun request asks => ?_⟩, name, ?_⟩
      · cases asks
      · rw [Entry.target?, kind]
  | separator =>
    simp only [share?, kind] at shared
    cases shared
    cases List.mem_singleton.mp member
    refine .inl ⟨oneLine, fun child attached => ?_⟩
    rw [Entry.child?, kind] at attached
    cases attached
  | generated generator =>
    simp only [share?, kind] at shared
    cases shared
    exact .inl (generator.oneLineBelow_entries reported kept member)

/-- Where no text of a template, a registered one or the expanded one, and no reported text has a line
end, no text of the expanded tree has one.

Proof: by induction on where a menu lies in the tree. What a generated list has attached is part of the
list. Below a reference lies an empty menu or what a registered template is expanded to. -/
theorem oneLine_of_within (reported : context.OneLine) (registered : registry.OneLine)
    {source inner shown : Menu} {levels : Nat} {expanded : Expanded}
    (oneLine : ∀ entry ∈ source.entries, entry.OneLine)
    (returned : registry.expandWithin context levels chain source = some expanded)
    (same : expanded.menu = shown) (within : inner.Within shown) :
    ∀ entry ∈ inner.entries, entry.OneLine := by
  induction within generalizing chain source levels expanded with
  | self =>
    subst same
    intro kept member
    obtain ⟨origin, stands, traced⟩ := exists_traced returned member
    obtain ⟨_, share, shared, inShare⟩ := traced.mem_share
    obtain whole | ⟨own, -⟩ := oneLine_of_mem_share reported (oneLine origin stands) shared inShare
    · exact whole.own
    · exact own
  | @through child outer kept member attached deeper inductionHypothesis =>
    subst same
    obtain ⟨origin, stands, traced⟩ := exists_traced returned member
    obtain ⟨_, share, shared, inShare⟩ := traced.mem_share
    obtain whole | ⟨-, name, refers⟩ :=
      oneLine_of_mem_share reported (oneLine origin stands) shared inShare
    · exact whole.below child attached inner deeper
    · have opened := child?_of_mem_share refers shared inShare
      rw [attached] at opened
      obtain rfl | ⟨template, nested, entered, opens, rfl⟩ := opened?_eq_some refers opened
      -- nothing lies in an empty menu but the menu itself
      · cases deeper with
        | self => exact fun entry absent => absurd absent List.not_mem_nil
        | through absent => exact absurd absent List.not_mem_nil
      · obtain ⟨-, -, -, known⟩ := entered?_eq_some_iff.mp entered
        exact inductionHypothesis (registered template (List.mem_of_find?_eq_some known)) opens rfl

end Registry

/-- The entries down to a level are entries of menus within the tree. -/
theorem within_of_mem_entriesDownTo :
    (∀ (level : Option Nat) (menu : Menu), ∀ entry ∈ menu.entriesDownTo level,
      ∃ inner : Menu, inner.Within menu ∧ entry ∈ inner.entries) ∧
    ∀ (level : Option Nat) (entries : List (Entry Menu)), ∀ entry ∈ entriesOfRun level entries,
      entry ∈ entries ∨ ∃ opening ∈ entries, ∃ child inner : Menu, opening.child? = some child ∧
        inner.Within child ∧ entry ∈ inner.entries := by
  apply Menu.entriesDownTo.mutual_induct
  case case1 =>
    intro level name entries inductionHypothesis entry member
    obtain onTop | ⟨opening, among, child, inner, attached, within, inside⟩ :=
      inductionHypothesis entry member
    · exact ⟨_, .self _, onTop⟩
    · exact ⟨inner, .through among attached within, inside⟩
  case case2 =>
    intro level entry absent
    exact absurd absent List.not_mem_nil
  case case3 =>
    intro level name child label optional status rest inChild inRest entry member
    rw [entriesOfRun, List.mem_cons, List.mem_append] at member
    obtain first | below | later := member
    · exact .inl (List.mem_cons.mpr (.inl first))
    · split at below
      · exact absurd below List.not_mem_nil
      · obtain ⟨inner, within, inside⟩ := inChild entry below
        exact .inr ⟨_, List.mem_cons_self, child, inner, rfl, within, inside⟩
    · obtain onTop | ⟨opening, among, further⟩ := inRest entry later
      · exact .inl (List.mem_cons_of_mem _ onTop)
      · exact .inr ⟨opening, List.mem_cons_of_mem _ among, further⟩
  case case4 =>
    intro level first rest leaf inRest entry member
    rw [entriesOfRun, List.mem_cons] at member
    · obtain same | later := member
      · exact .inl (List.mem_cons.mpr (.inl same))
      · obtain onTop | ⟨opening, among, further⟩ := inRest entry later
        · exact .inl (List.mem_cons_of_mem _ onTop)
        · exact .inr ⟨opening, List.mem_cons_of_mem _ among, further⟩
    · exact leaf

/-- What is shown of an entry are parts of its label, its request and a key binding. -/
theorem Entry.OneLine.texts {entry : Entry Menu} (oneLine : entry.OneLine)
    {bindingsOf : Request → List String} {options : DisplayOptions}
    (bound : ∀ request, ∀ keys ∈ bindingsOf request, Menus.OneLine keys) :
    ∀ text ∈ entry.texts bindingsOf options, Menus.OneLine text := by
  have named : Menus.OneLine entry.text := by
    rw [text, oneLine_ofList]
    exact fun inside => oneLine.label ((List.takeWhile_sublist _).subset inside)
  have hinted : Menus.OneLine entry.shortcut := by
    rw [shortcut, oneLine_ofList]
    intro inside
    have behind := List.mem_of_mem_drop ((List.takeWhile_sublist _).subset inside)
    exact oneLine.label ((List.dropWhile_sublist _).subset behind)
  have reached : Menus.OneLine (Row.binding bindingsOf entry) := by
    rw [Row.binding]
    split
    · next request _ =>
      cases keys : (bindingsOf request).head? with
      | none => exact (by decide : Menus.OneLine "")
      | some first => exact bound request first (List.mem_of_mem_head? keys)
    · decide
  rw [Entry.texts]
  split
  · exact fun text absent => absurd absent List.not_mem_nil
  · rw [List.forall_mem_append, List.forall_mem_append, List.forall_mem_cons,
      List.forall_mem_singleton]
    refine ⟨⟨⟨named, hinted⟩, ?_⟩, ?_⟩
    · split
      · intro text isRequest
        obtain ⟨request, asks, rfl⟩ := Option.map_eq_some_iff.mp (Option.mem_toList.mp isRequest)
        exact oneLine.request request asks
      · exact fun text absent => absurd absent List.not_mem_nil
    · split
      · rw [List.forall_mem_singleton]
        exact reached
      · exact fun text absent => absurd absent List.not_mem_nil

/-- The printed tree of an expanded menu has a line end for each entry shown, and one for each that the
texts shown bring along. So there is one line for each entry, behind the drawing in front of the entry,
exactly where no text shown has a line end. None has one if the templates, what the application reports
and the key bindings have none. -/
theorem line_ends_are_copied (registry : Registry) (context : Context) (source : Menu)
    (expanded : Expanded) (returned : registry.expand? context source = some expanded)
    (bindingsOf : Request → List String) (options : DisplayOptions) (plain : options.styled = false) :
    (expanded.menu.render bindingsOf options).toList.count '\n' =
        (expanded.menu.entriesDownTo options.depth).length +
          (characters (expanded.menu.texts bindingsOf options)).count '\n' ∧
      (OneLineEach (expanded.menu.rows options.depth []) (expanded.menu.render bindingsOf options) ↔
        ∀ text ∈ expanded.menu.texts bindingsOf options, OneLine text) ∧
      (registry.OneLine → (∀ entry ∈ source.entries, entry.OneLine) → context.OneLine →
        (∀ request, ∀ keys ∈ bindingsOf request, OneLine keys) →
        ∀ text ∈ expanded.menu.texts bindingsOf options, OneLine text) := by
  refine ⟨count_render plain expanded.menu, oneLineEach_render_iff plain expanded.menu, ?_⟩
  intro registered own reported bound text isShown
  obtain ⟨entry, shown, isText⟩ := List.mem_flatMap.mp isShown
  obtain ⟨inner, within, inside⟩ := within_of_mem_entriesDownTo.1 options.depth expanded.menu entry shown
  have oneLine := Registry.oneLine_of_within reported registered own returned rfl within entry inside
  exact oneLine.texts bound text isText

/-- A menubar that pastes what was copied lately. -/
def pasting : Registry where
  menubar := ⟨"", [{ kind := .generated .pasteRecent }]⟩

/-- Every command can run, and a text was copied. -/
def copied (selection : String) : Context where
  statusOf _ := .enabled
  selections := [selection]
  document := some {}

/-- If the copied text has one line, nothing that the application reports has a line end. -/
theorem oneLine_copied {selection : String} (oneLine : OneLine selection) :
    (copied selection).OneLine where
  lastFiles _ absent := nomatch absent
  bookmarks _ absent := nomatch absent
  documents _ absent := nomatch absent
  importable _ absent := nomatch absent
  toolbars _ absent := nomatch absent
  toolbarNames _ absent := nomatch absent
  selections := List.forall_mem_singleton.mpr oneLine
  document := by
    rintro _ ⟨⟩
    exact {
      kinds := fun _ absent => nomatch absent
      headings := fun _ absent => nomatch absent
      floatKinds := fun _ absent => nomatch absent
      floatNames := fun _ absent => nomatch absent
      floatLists := fun _ absent => nomatch absent
      insets := fun _ absent => nomatch absent
      branches := fun _ absent => nomatch absent
      formats := fun _ _ absent => nomatch absent
      master := fun _ absent => nomatch absent }

/-- A copied text of one line is printed on one line. -/
theorem copied_line_is_one_line :
    ∃ expanded, pasting.expand? (copied "a b") pasting.menubar = some expanded ∧
      OneLineEach (expanded.menu.rows none []) (expanded.menu.render (fun _ => []) {}) := by
  refine ⟨_, rfl, ?_⟩
  obtain ⟨-, oneLineEach, copies⟩ :=
    line_ends_are_copied pasting (copied "a b") pasting.menubar _ rfl (fun _ => []) {} rfl
  refine oneLineEach.mpr (copies ?_ ?_ (oneLine_copied (by decide)) ?_)
  · exact fun template absent => nomatch absent
  · exact List.forall_mem_singleton.mpr ⟨by decide, fun request asks => nomatch asks⟩
  · exact fun request keys absent => nomatch absent

/-- A copied text of two lines is printed on two lines, although it is one entry. -/
theorem copied_lines_break_the_tree :
    ∃ expanded, pasting.expand? (copied "a\nb") pasting.menubar = some expanded ∧
      expanded.menu.render (fun _ => []) {} = "└─a\nb\n" ∧
      (expanded.menu.entriesDownTo none).length = 1 ∧
      (expanded.menu.render (fun _ => []) {}).toList.count '\n' = 2 :=
  ⟨_, rfl, by decide +kernel, by decide +kernel, by decide +kernel⟩

end Menus
