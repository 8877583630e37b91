import Menus.Menu.Shortcuts
import Menus.Proofs.Shares

/-!
# Numbered lists

Recent files, open documents and branches are numbered: the first nine entries of each list are
labelled with their number, the name they show and the number again as a hint. The label is taken
apart again at its bars. So text and hint of an entry are what they were made of exactly if the name
has no bar of its own. If no name of a list has one, the hints are different digits, each of which
stands in front of its own text, and there is nothing to report about them.
-/

namespace Menus

/-- A piece occurs in the text that it begins. -/
theorem Text.occursIn_append (piece rest : List Char) :
    Text.occursIn piece (piece ++ rest) = true := by
  cases piece with
  | nil => exact occursIn_nil rest
  | cons c later =>
    have begins : (c :: later).isPrefixOf (c :: later ++ rest) = true :=
      List.isPrefixOf_iff_prefix.mpr (List.prefix_append _ _)
    rw [List.cons_append] at begins ⊢
    rw [occursIn, begins, Bool.true_or]

namespace Entry

/-- What stands in front of the first bar of a label, and what stands from there on. -/
theorem split_at_bar {label shown rest : List Char} (written : label = shown ++ rest)
    (plain : '|' ∉ shown) (stops : ∀ c ∈ rest.head?, c = '|') :
    label.takeWhile (· ≠ '|') = shown ∧ label.dropWhile (· ≠ '|') = rest := by
  have inside : ∀ c ∈ shown, decide (c ≠ '|') = true := fun c member =>
    decide_eq_true fun bar => plain (bar ▸ member)
  rw [written, List.takeWhile_append_of_pos inside, List.dropWhile_append_of_pos inside]
  cases rest with
  | nil => simp
  | cons c later => simp [stops c rfl]

variable {entry : Entry Menu}

/-- What stands in front of the first bar of a label is the text. -/
theorem text_of_bar {shown hint : List Char} (label : entry.label.toList = shown ++ '|' :: hint)
    (plain : '|' ∉ shown) : entry.text = String.ofList shown := by
  rw [text, (split_at_bar label plain (by simp)).1]

/-- What stands behind the first bar of a label is the hint, if there is no other bar. -/
theorem shortcut_of_bar {shown hint : List Char}
    (label : entry.label.toList = shown ++ '|' :: hint) (plain : '|' ∉ shown)
    (plainHint : '|' ∉ hint) : entry.shortcut = String.ofList hint := by
  have whole := (split_at_bar (List.append_nil hint).symm plainHint (by simp)).1
  rw [shortcut, (split_at_bar label plain (by simp)).2, List.drop_one, List.tail_cons, whole]

/-- A label without a bar is all text and has no hint. -/
theorem text_of_plain (plain : '|' ∉ entry.label.toList) :
    entry.text = entry.label ∧ entry.shortcut = "" := by
  obtain ⟨whole, none⟩ := split_at_bar (List.append_nil entry.label.toList).symm plain (by simp)
  constructor
  · rw [text, whole, String.ofList_toList]
  · rw [shortcut, none]
    rfl

/-- The text of an entry has no bar. -/
theorem bar_notMem_text (entry : Entry Menu) : '|' ∉ entry.text.toList := by
  rw [text, String.toList_ofList]
  intro member
  simpa using List.mem_takeWhile_imp member

end Entry

/-- What an entry of a numbered list shows at a position, counted from 0. Behind the ninth it is the
name alone. -/
def textAt (position : Nat) (name : String) : String :=
  if position < numberedEntries then toString (position + 1) ++ ". " ++ name else name

/-- The hint at a position, counted from 0. Behind the ninth there is none. -/
def hintAt (position : Nat) : String :=
  if position < numberedEntries then toString (position + 1) else ""

namespace Entry

/-- The entry shows a name behind the number of its position, and the number is its hint. -/
def Shows (entry : Entry Menu) (position : Nat) (name : String) : Prop :=
  entry.text = textAt position name ∧ entry.shortcut = hintAt position

instance (entry : Entry Menu) (position : Nat) (name : String) :
    Decidable (entry.Shows position name) :=
  inferInstanceAs (Decidable (_ ∧ _))

variable {entry : Entry Menu} {position : Nat} {name : String}

/-- A number that is shown has no bar. -/
theorem bar_notMem_number :
    ∀ position < numberedEntries, '|' ∉ (toString (position + 1)).toList := by
  decide

/-- An entry labelled with a numbered name shows it as a whole exactly if the name has no bar. -/
theorem shows_iff (label : entry.label = numberedAt position name) :
    entry.Shows position name ↔ '|' ∉ name.toList := by
  rw [numberedAt] at label
  constructor
  · rintro ⟨text, -⟩ inName
    have inText : '|' ∈ entry.text.toList := by
      rw [text, textAt]
      split <;> simp [inName]
    exact entry.bar_notMem_text inText
  · intro plain
    rw [Shows, textAt, hintAt]
    split at label
    · rename_i early
      have digits := bar_notMem_number position early
      have joined : numbered (position + 1) name =
          toString (position + 1) ++ ". " ++ name ++ "|" ++ toString (position + 1) := rfl
      have written : entry.label.toList =
          (toString (position + 1) ++ ". " ++ name).toList ++
            '|' :: (toString (position + 1)).toList := by
        simp [label, joined]
      have plainText : '|' ∉ (toString (position + 1) ++ ". " ++ name).toList := by
        simpa [plain] using digits
      rw [if_pos early, if_pos early, text_of_bar written plainText,
        shortcut_of_bar written plainText digits, String.ofList_toList, String.ofList_toList]
      exact ⟨rfl, rfl⟩
    · rename_i late
      rw [if_neg late, if_neg late]
      rw [← label] at plain
      exact label ▸ text_of_plain plain

/-- An entry that shows a name has no hint, or one that occurs in its text. -/
theorem Shows.own (shows : entry.Shows position name) :
    entry.shortcut = "" ∨ entry.lacksShortcut = false := by
  obtain ⟨text, hint⟩ := shows
  rw [textAt] at text
  rw [hintAt] at hint
  split at hint
  · rename_i early
    right
    rw [lacksShortcut, text, hint, if_pos early, String.toList_append, String.toList_append,
      List.append_assoc, Text.occursIn_append]
    rfl
  · exact .inl hint

end Entry

/-- There is a name for each path. -/
theorem length_shortNames (home : String) (limit : Nat) (paths : List String) :
    (shortNames home limit paths).length = paths.length := by
  rw [shortNames]
  split
  · rename_i named
    rw [List.length_map, List.filterMap_length_eq_length.mpr (by simpa using named.1),
      List.length_map]
  · rw [List.length_map]

namespace Context

variable (context : Context)

/-- The names shown for the recent files. -/
def fileNames : List String :=
  shortNames context.home lastFilesPathLimit (context.lastFiles.take numberedEntries)

/-- The names shown for the open documents. A star marks one with unsaved changes. -/
def documentNames : List String :=
  let names := shortNames context.home documentPathLimit (context.documents.map OpenDocument.path)
  (context.documents.zip names).map fun (document, name) =>
    if document.clean then name else name ++ "*"

/-- The names that get an entry in a numbered list, each with its position counted from 0. The
branches are numbered first, and then those left out whose command the application does not know. -/
def shownNames : Generator → List (String × Nat)
  | .lastFiles => context.fileNames.zipIdx
  | .documents => context.documentNames.zipIdx
  | .branches =>
    match context.document with
    | some document => document.branches.zipIdx.filter fun (branch, _) =>
      !(context.statusOf (.ofMenu "branch-insert" branch)).isUnknown
    | none => []
  | _ => []

/-- No two names have one position. -/
theorem nodup_positions (generator : Generator) :
    ((context.shownNames generator).map Prod.snd).Nodup := by
  have whole (names : List String) : (names.zipIdx.map Prod.snd).Nodup := by
    rw [List.zipIdx_map_snd]
    exact List.nodup_range'
  rw [shownNames.eq_def]
  split
  · exact whole _
  · exact whole _
  · split
    · exact (whole _).sublist (List.filter_sublist.map _)
    · exact List.nodup_nil
  · exact List.nodup_nil

/-- The labels of the recent files. -/
theorem labels_lastFiles :
    context.lastFileEntries.map Entry.label =
      context.fileNames.zipIdx.map fun (name, position) => numberedAt position name := by
  have enough : context.fileNames.length = (context.lastFiles.take numberedEntries).length :=
    length_shortNames _ _ _
  have names : context.fileNames =
      ((context.lastFiles.take numberedEntries).zip context.fileNames).map Prod.snd :=
    (List.map_snd_zip enough.le).symm
  rw [names, List.zipIdx_map, List.map_map, lastFileEntries, List.map_map]
  refine List.map_congr_left fun item member => ?_
  have early : item.2 < numberedEntries := by
    have inside := List.snd_lt_of_mem_zipIdx member
    rw [List.length_zip, List.length_take] at inside
    omega
  simp [numberedAt, early, Entry.enabledCommand, Entry.command]

/-- The labels of the open documents. -/
theorem labels_documents (nonempty : context.documents ≠ []) :
    context.documentEntries.map Entry.label =
      context.documentNames.zipIdx.map fun (name, position) => numberedAt position name := by
  have listed : ¬context.documents.isEmpty = true := by simpa using nonempty
  simp only [documentNames, documentEntries, if_neg listed, List.zipIdx_map, List.map_map]
  rfl

/-- The labels of the branches. -/
theorem labels_branches {document : Document} (opened : context.document = some document)
    (nonempty : document.branches ≠ []) :
    context.branchEntries.map Entry.label =
      (context.shownNames .branches).map fun (name, position) => numberedAt position name := by
  have listed : ¬document.branches.isEmpty = true := by simpa using nonempty
  have kept := context.kept_commands document.branches.zipIdx
    (fun branch => numberedAt branch.2 branch.1) fun branch => .ofMenu "branch-insert" branch.1
  have entries : context.branchEntries =
      context.kept (document.branches.zipIdx.map fun branch =>
        .command (numberedAt branch.2 branch.1) (.ofMenu "branch-insert" branch.1)) := by
    simp only [branchEntries, withDocument, opened, if_neg listed]
  rw [entries, kept, List.map_map]
  simp only [shownNames, opened]
  rfl

/-- A numbered list has an entry for each of its names, labelled with it, or says that there is
nothing to list. -/
theorem labels_numbered {generator : Generator}
    (counted : generator ∈ [Generator.lastFiles, .documents, .branches]) :
    (generator.entries context).map Entry.label =
        ((context.shownNames generator).map fun (name, position) => numberedAt position name) ∨
      context.shownNames generator = [] ∧
        ∃ notice, '|' ∉ notice.toList ∧ generator.entries context = [.placeholder notice] := by
  simp only [List.mem_cons, List.not_mem_nil, or_false] at counted
  rcases counted with rfl | rfl | rfl
  · exact .inl context.labels_lastFiles
  · by_cases empty : context.documents = []
    · refine .inr ⟨?_, "No Documents Open!", by decide, ?_⟩
      · simp [shownNames, documentNames, empty]
      · simp [Generator.entries, documentEntries, empty]
    · exact .inl (context.labels_documents empty)
  · cases opened : context.document with
    | none =>
      refine .inr ⟨?_, "No Document Open!", by decide, ?_⟩
      · simp [shownNames, opened]
      · simp [Generator.entries, branchEntries, withDocument, opened]
    | some document =>
      by_cases empty : document.branches = []
      · refine .inr ⟨?_, "No Branch in Document!", by decide, ?_⟩
        · simp [shownNames, opened, empty]
        · simp [Generator.entries, branchEntries, withDocument, opened, empty]
      · exact .inl (context.labels_branches opened empty)

end Context

/-- There is nothing to report about hints that occur in their texts and are not shared. -/
theorem shortcutIssuesOf_eq_nil (menu : String) {entries : List (Entry Menu)}
    (own : ∀ entry ∈ entries, entry.shortcut = "" ∨ entry.lacksShortcut = false)
    (apart : entries.Pairwise fun first second =>
      first.shortcut = "" ∨ first.sharesShortcut second = false) :
    shortcutIssuesOf menu entries = [] := by
  induction entries with
  | nil => rfl
  | cons entry later inductionHypothesis =>
    obtain ⟨first, rest⟩ := List.pairwise_cons.mp apart
    have others := inductionHypothesis (fun other member => own other (.tail _ member)) rest
    rw [shortcutIssuesOf, others, List.append_nil, Entry.shortcutIssues]
    split
    · rfl
    · rename_i hinted
      have present : entry.shortcut ≠ "" := by simpa using hinted
      have unshared : later.filter entry.sharesShortcut = [] := by
        rw [List.filter_eq_nil_iff]
        intro other member
        simp [(first other member).resolve_left present]
      simp [unshared, (own entry List.mem_cons_self).resolve_left present]

/-- Different positions do not share a hint. -/
theorem hintAt_apart {first second : Nat} (different : first ≠ second) :
    hintAt first = "" ∨ Text.sameIgnoringCase (hintAt first) (hintAt second) = false := by
  have digits : ∀ first < numberedEntries, ∀ second < numberedEntries, first ≠ second →
      Text.sameIgnoringCase (toString (first + 1)) (toString (second + 1)) = false := by
    decide
  have someDigit : ∀ first < numberedEntries,
      Text.sameIgnoringCase (toString (first + 1)) "" = false := by
    decide
  rw [hintAt, hintAt]
  split
  · rename_i early
    right
    split
    · rename_i alsoEarly
      exact digits first early second alsoEarly different
    · exact someDigit first early
  · exact .inl rfl

/-- Entries that show names at different positions have hints about which there is nothing to
report. -/
theorem shortcutIssuesOf_shows (menu : String) {entries : List (Entry Menu)}
    {names : List (String × Nat)}
    (shows : List.Forall₂ (fun entry shown => entry.Shows shown.2 shown.1) entries names)
    (distinct : (names.map Prod.snd).Nodup) : shortcutIssuesOf menu entries = [] := by
  have hints : entries.map Entry.shortcut = names.map fun shown => hintAt shown.2 := by
    rw [← List.forall₂_eq_eq_eq, List.forall₂_map_left_iff, List.forall₂_map_right_iff]
    exact shows.imp fun entry shown one => one.2
  apply shortcutIssuesOf_eq_nil
  · have each := shows.imp fun entry shown one => And.intro one.own one
    exact ((List.forall₂_and_left entries names).mp each).1
  · have apart : (names.map fun shown => hintAt shown.2).Pairwise fun first second =>
        first = "" ∨ Text.sameIgnoringCase first second = false := by
      rw [List.pairwise_map]
      exact (List.pairwise_map.mp distinct).imp hintAt_apart
    rw [← hints, List.pairwise_map] at apart
    exact apart

/-- Separated entries have no separator at their end that could be taken off. -/
theorem Separated.dropTrailingSeparator_eq {menu : Menu} (separated : Separated menu.entries) :
    menu.dropTrailingSeparator = menu := by
  rw [Menu.dropTrailingSeparator]
  split
  · rename_i last final
    rw [separated.last last final]
    rfl
  · rfl

/-- A template with nothing but a generated list expands to this list. -/
theorem Registry.expand?_generated (registry : Registry) (context : Context) (title : String)
    (generator : Generator) :
    ∃ expanded, registry.expand? context ⟨title, [{ kind := .generated generator }]⟩ = some expanded ∧
      expanded.menu = ⟨title, generator.entries context⟩ := by
  have listed : Separated (Menu.mk title (generator.entries context)).entries :=
    (Generator.listed_entries generator context).separated
  have assembled : registry.assemble context title [{ kind := .generated generator }] =
      ⟨title, generator.entries context⟩ := listed.dropTrailingSeparator_eq
  exact ⟨_, rfl, assembled⟩

/-- A template with a list of recent files, open documents or branches alone expands to a menu with one
entry for each name in the list, or with a notice that there is nothing to list. The entry shows the
number of its position and behind it the name as a whole, and has the number as its hint, or behind
the ninth position shows the name alone and has no hint, exactly if the name has no bar. If no name has
one, there is nothing to report about the hints of the menu. -/
theorem numbers_miss_only_names_with_bars (registry : Registry) (context : Context)
    (title : String) {generator : Generator}
    (counted : generator ∈ [Generator.lastFiles, .documents, .branches]) :
    ∃ expanded,
      registry.expand? context ⟨title, [{ kind := .generated generator }]⟩ = some expanded ∧
        (List.Forall₂
            (fun entry shown => entry.label = numberedAt shown.2 shown.1 ∧
              (entry.Shows shown.2 shown.1 ↔ '|' ∉ shown.1.toList))
            expanded.menu.entries (context.shownNames generator) ∨
          context.shownNames generator = [] ∧
            ∃ notice, expanded.menu.entries = [.placeholder notice]) ∧
        ((∀ shown ∈ context.shownNames generator, '|' ∉ shown.1.toList) →
          expanded.menu.shortcutIssues = []) := by
  obtain ⟨expanded, returned, menu⟩ := registry.expand?_generated context title generator
  refine ⟨expanded, returned, ?_⟩
  rw [menu, Menu.shortcutIssues]
  rcases context.labels_numbered counted with labels | ⟨none, notice, plain, entries⟩
  · have labelled : List.Forall₂ (fun entry shown => entry.label = numberedAt shown.2 shown.1)
        (generator.entries context) (context.shownNames generator) := by
      rwa [← List.forall₂_eq_eq_eq, List.forall₂_map_left_iff, List.forall₂_map_right_iff]
        at labels
    refine ⟨.inl (labelled.imp fun entry shown label => ⟨label, Entry.shows_iff label⟩), ?_⟩
    intro plain
    obtain ⟨sameLength, each⟩ := List.forall₂_iff_zip.mp labelled
    refine shortcutIssuesOf_shows title (List.forall₂_iff_zip.mpr ⟨sameLength, ?_⟩)
      (context.nodup_positions generator)
    intro entry shown paired
    exact (Entry.shows_iff (each paired)).mpr (plain shown (List.of_mem_zip paired).2)
  · refine ⟨.inr ⟨none, notice, entries⟩, fun _ => ?_⟩
    rw [entries]
    apply shortcutIssuesOf_eq_nil
    · intro entry member
      rw [List.mem_singleton.mp member]
      exact .inl (Entry.text_of_plain plain).2
    · exact List.pairwise_singleton _ _

/-- Ten open documents, of which two have one file name, so that their paths are shown. -/
def manyDocuments : Context where
  statusOf _ := .enabled
  documents := (List.range 9).map (fun number => ⟨s!"/{number}/letter.lyx", true⟩) ++
    [⟨"/home/ana/letters/fall/letter.lyx", false⟩]

/-- The tenth document has no number, and nothing is to report about the hints of the others. -/
theorem ten_documents_are_numbered :
    ∃ expanded,
      Registry.expand? {} manyDocuments ⟨"", [{ kind := .generated .documents }]⟩ = some expanded ∧
        (expanded.menu.entries.drop 8).map Entry.text =
          ["9. /8/letter.lyx", ".../fall/letter.lyx*"] ∧
        (expanded.menu.entries.drop 8).map Entry.shortcut = ["9", ""] ∧
        expanded.menu.shortcutIssues = [] := by
  have plain : ∀ shown ∈ manyDocuments.shownNames .documents, '|' ∉ shown.1.toList := by
    decide +kernel
  obtain ⟨expanded, returned, _, silent⟩ :=
    numbers_miss_only_names_with_bars {} manyDocuments ""
      (show Generator.documents ∈ [Generator.lastFiles, .documents, .branches] by decide)
  have entries : expanded.menu.entries = manyDocuments.documentEntries := by
    cases returned
    rfl
  refine ⟨expanded, returned, ?_, ?_, silent plain⟩
  · rw [entries]
    decide +kernel
  · rw [entries]
    decide +kernel

/-- A file name with a bar. -/
def barredFile : Context where
  statusOf _ := .enabled
  lastFiles := ["/a|b.lyx"]

/-- Only the part of a file name in front of its bar is shown, and the part behind it is the hint,
which is reported since the text does not contain it. -/
theorem barred_file_is_cut :
    barredFile.shownNames .lastFiles = [("a|b.lyx", 0)] ∧
      ∃ expanded,
        Registry.expand? {} barredFile ⟨"", [{ kind := .generated .lastFiles }]⟩ = some expanded ∧
          expanded.menu.entries.map Entry.text = ["1. a"] ∧
          expanded.menu.entries.map Entry.shortcut = ["b.lyx"] ∧
          expanded.menu.shortcutIssues = [.missing "" "1. a" "b.lyx"] ∧
          ¬ ∀ entry ∈ expanded.menu.entries, entry.Shows 0 "a|b.lyx" := by
  refine ⟨by decide +kernel, _, rfl, ?_, ?_, ?_, ?_⟩ <;> decide +kernel

end Menus
