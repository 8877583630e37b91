import Menus.Expansion.Generated
import Menus.Proofs.Assembly

/-!
# The entries of generated lists

Every generated list consists of shown entries: commands of known status, and submenus that hold
shown entries in turn and are as available as their menus. The one exception is the separator behind
the way to a master document. It stands between two shown entries, because a table of contents
without headings still shows a placeholder.

The partition of a table of contents opens no empty submenu. A group opens with its heading and a
page has a first heading, so each of these menus can be entered and its submenu is enabled rightly.
-/

namespace Menus

/-- A command of known status, or a submenu of shown entries that is as available as its menu. No
shown entry is optional. -/
inductive Shown : Entry Menu → Prop where
  | command {entry : Entry Menu} {request : Request} (runs : entry.kind = .command request)
      (known : entry.status.isUnknown = false) (required : entry.optional = false) : Shown entry
  | opened {entry : Entry Menu} {menu : Menu} (opens : entry.kind = .submenu menu.name (some menu))
      (inside : ∀ inner ∈ menu.entries, Shown inner)
      (available : entry.status.availability = menu.availability)
      (required : entry.optional = false) : Shown entry

namespace Shown

/-- A shown entry is no separator. -/
theorem isSeparator_eq_false {entry : Entry Menu} (shown : Shown entry) :
    entry.isSeparator = false := by
  cases shown with
  | command runs => simp [Entry.isSeparator, runs]
  | opened opens => simp [Entry.isSeparator, opens]

/-- A command that is known to run is shown. -/
theorem enabledCommand (label : String) (request : Request) :
    Shown (.enabledCommand label request) :=
  .command rfl rfl rfl

/-- A placeholder is shown. -/
theorem placeholder (label : String) : Shown (.placeholder label) :=
  .command rfl rfl rfl

end Shown

/-- An enabled command makes its menu one with something enabled. -/
theorem Menu.hasEnabled_of_command {menu : Menu} {entry : Entry Menu}
    (member : entry ∈ menu.entries) (command : entry.isCommand = true)
    (enabled : entry.status.isEnabled = true) : menu.hasEnabled = true := by
  rw [hasEnabled, List.any_eq_true]
  exact ⟨entry, member, by simp [command, enabled]⟩

namespace Contents

/-- There is a label for each heading. -/
theorem length_labels (depth : Int) (used : Nat) (headings : List Heading) :
    (labels depth used headings).length = headings.length := by
  induction headings generalizing used with
  | nil => rfl
  | cons heading rest inductionHypothesis => simp [labels, inductionHypothesis]

/-- A flat run shows a command for each heading. -/
theorem length_flat (depth : Int) (headings : List Heading) :
    (flat depth headings).length = headings.length := by
  simp [flat, length_labels]

/-- The entries of a flat run are commands for its headings. -/
theorem exists_of_mem_flat {depth : Int} {headings : List Heading} {entry : Entry Menu}
    (member : entry ∈ flat depth headings) :
    ∃ shown, ∃ heading ∈ headings, entry = command shown heading := by
  rw [flat, ← List.map_uncurry_zip_eq_zipWith] at member
  obtain ⟨⟨shown, heading⟩, paired, rfl⟩ := List.mem_map.mp member
  exact ⟨shown, heading, (List.of_mem_zip paired).2, rfl⟩

/-- A submenu of the contents is shown when its entries are and one of them is an enabled
command. -/
theorem shown_submenu (label : String) {entries : List (Entry Menu)} {first : Entry Menu}
    (inside : ∀ entry ∈ entries, Shown entry) (member : first ∈ entries)
    (command : first.isCommand = true) (enabled : first.status.isEnabled = true) :
    Shown (submenu label entries) := by
  have usable : Menu.hasEnabled ⟨"", entries⟩ = true :=
    Menu.hasEnabled_of_command member command enabled
  refine .opened rfl inside ?_ rfl
  simp [Menu.availability, usable, submenu, Entry.opened, Status.enabled]

/-- A page of headings is shown. -/
theorem shown_page (depth : Int) {headings : List Heading} (nonempty : headings ≠ []) :
    Shown (page depth headings) := by
  have inside : ∀ entry ∈ flat (raise depth headings) headings, Shown entry := by
    intro entry member
    obtain ⟨shown, heading, _, rfl⟩ := exists_of_mem_flat member
    exact .enabledCommand shown heading.request
  have positive : 0 < (flat (raise depth headings) headings).length := by
    rw [length_flat]
    exact List.length_pos_iff.mpr nonempty
  obtain ⟨first, member⟩ := List.exists_mem_of_length_pos positive
  obtain ⟨shown, heading, _, rfl⟩ := exists_of_mem_flat member
  exact shown_submenu _ inside member rfl rfl

/-- Pages are not empty. -/
theorem ne_nil_of_mem_runs {size : Nat} (positive : 0 < size) {headings chunk : List Heading}
    (member : chunk ∈ runs size headings) : chunk ≠ [] := by
  fun_induction runs size headings with
  | case1 => exact absurd member List.not_mem_nil
  | case2 headings remaining inductionHypothesis =>
    rcases List.mem_cons.mp member with rfl | later
    · intro empty
      rcases List.take_eq_nil_iff.mp empty with zero | none
      · omega
      · exact remaining (.inr none)
    · exact inductionHypothesis later

/-- The contents of a document are divided into shown entries. -/
theorem shown_of_mem_partition {depth : Int} {headings : List Heading} {entry : Entry Menu}
    (member : entry ∈ partition depth headings) : Shown entry := by
  fun_induction partition depth headings generalizing entry with
  | case1 =>
    obtain ⟨shown, heading, _, rfl⟩ := exists_of_mem_flat member
    exact .enabledCommand shown heading.request
  | case2 =>
    obtain ⟨chunk, among, rfl⟩ := List.mem_map.mp member
    exact shown_page _ (ne_nil_of_mem_runs (by decide) among)
  | case3 =>
    rename_i inductionHypothesis
    rw [← List.map_uncurry_zip_eq_zipWith] at member
    obtain ⟨⟨shown, group⟩, _, rfl⟩ := List.mem_map.mp member
    rw [Function.uncurry_apply_pair]
    split
    · exact .enabledCommand shown group.val.head.request
    · refine shown_submenu _ ?_ List.mem_cons_self rfl rfl
      intro inner among
      rcases List.mem_cons.mp among with rfl | deeper
      · exact .enabledCommand _ _
      · exact inductionHypothesis group deeper

/-- Headings have at least one group. -/
theorem groups_ne_nil (depth : Int) {headings : List Heading} (nonempty : headings ≠ []) :
    groups depth headings ≠ [] := by
  cases headings with
  | nil => exact absurd rfl nonempty
  | cons head rest => simp [groups]

/-- Headings have at least one entry, however they are divided. -/
theorem partition_ne_nil (depth : Int) {headings : List Heading} (nonempty : headings ≠ []) :
    partition depth headings ≠ [] := by
  intro vanished
  rw [partition] at vanished
  dsimp only at vanished
  split at vanished
  · have commands := length_flat (raise depth headings) headings
    rw [vanished] at commands
    exact nonempty (List.length_eq_zero_iff.mp commands.symm)
  · split at vanished
    · have pages := flatten_runs pageSize headings (by decide)
      rw [List.map_eq_nil_iff.mp vanished] at pages
      exact nonempty pages.symm
    · have grouped := groups_ne_nil (raise depth headings) nonempty
      have labelled := length_labels (raise depth headings) 0
        ((groups (raise depth headings) headings).map Group.head)
      rcases List.zipWith_eq_nil_iff.mp vanished with unlabelled | unattached
      · rw [unlabelled, List.length_map] at labelled
        exact grouped (List.length_eq_zero_iff.mp labelled.symm)
      · exact grouped (List.attach_eq_nil_iff.mp unattached)

/-- The list of the floats of one type is shown. It is enabled exactly when it is not empty. -/
theorem shown_floatList (types : List FloatType) (list : ContentsList) :
    Shown (floatList types list) := by
  have inside : ∀ entry ∈ list.items.map opening, Shown entry := by
    intro entry member
    obtain ⟨heading, _, rfl⟩ := List.mem_map.mp member
    exact .enabledCommand _ _
  refine .opened rfl inside ?_ rfl
  cases items : list.items with
  | nil => simp [floatList, Entry.opened, items, Menu.availability, Menu.hasEnabled,
      Status.withEnabled]
  | cons first rest =>
    have usable : Menu.hasEnabled ⟨list.kind, (first :: rest).map opening⟩ = true :=
      Menu.hasEnabled_of_command List.mem_cons_self rfl rfl
    simp only [floatList, Entry.opened, items, Menu.availability, usable]
    rfl

end Contents

/-- The status policy keeps the commands that the application knows, with the status it reports. -/
theorem Context.kept_commands (context : Context) {α : Type} (items : List α) (label : α → String)
    (request : α → Request) :
    context.kept (items.map fun item => .command (label item) (request item)) =
      (items.filter fun item => !(context.statusOf (request item)).isUnknown).map fun item =>
        { Entry.command (label item) (request item) with
          status := context.statusOf (request item) } := by
  have decided (item : α) : (Entry.command (label item) (request item)).kept? context.statusOf =
      if (context.statusOf (request item)).isUnknown then none
      else some { Entry.command (label item) (request item) with
        status := context.statusOf (request item) } := by
    simp [Entry.kept?, Entry.command]
  rw [kept]
  induction items with
  | nil => rfl
  | cons item rest inductionHypothesis =>
    cases known : (context.statusOf (request item)).isUnknown with
    | true =>
      rw [List.map_cons, List.filterMap_cons_none ((decided item).trans (if_pos known)),
        inductionHypothesis, List.filter_cons_of_neg (by simp [known])]
    | false =>
      rw [List.map_cons, List.filterMap_cons_some ((decided item).trans (if_neg (by simp [known]))),
        inductionHypothesis, List.filter_cons_of_pos (by simp [known]), List.map_cons]

/-- A generated list: shown entries alone, or a shown entry and a separator in front of some. -/
inductive Listed : List (Entry Menu) → Prop where
  | plain {entries : List (Entry Menu)} (shown : ∀ entry ∈ entries, Shown entry) : Listed entries
  | headed {first : Entry Menu} {entries : List (Entry Menu)} (firstShown : Shown first)
      (nonempty : entries ≠ []) (shown : ∀ entry ∈ entries, Shown entry) :
      Listed (first :: .separator :: entries)

namespace Listed

/-- An entry of a generated list is shown or a separator. -/
theorem shown_or_separator {entries : List (Entry Menu)} (listed : Listed entries)
    {entry : Entry Menu} (member : entry ∈ entries) : Shown entry ∨ entry = .separator := by
  cases listed with
  | plain shown => exact .inl (shown entry member)
  | headed firstShown nonempty shown =>
    rcases List.mem_cons.mp member with rfl | member
    · exact .inl firstShown
    · rcases List.mem_cons.mp member with rfl | member
      · exact .inr rfl
      · exact .inl (shown entry member)

/-- One placeholder makes a generated list. -/
theorem placeholder (label : String) : Listed [.placeholder label] :=
  .plain fun entry member => by
    rw [List.mem_singleton.mp member]
    exact .placeholder label

/-- A list that needs a document is generated whether there is one or not. -/
theorem withDocument (context : Context) {entries : Document → List (Entry Menu)}
    (listed : ∀ document, Listed (entries document)) : Listed (context.withDocument entries) := by
  rw [Context.withDocument]
  split
  · exact listed _
  · exact placeholder _

/-- Commands that are known to run make a generated list. -/
theorem enabledCommands {α : Type} (items : List α) (label : α → String) (request : α → Request) :
    Listed (items.map fun item => .enabledCommand (label item) (request item)) :=
  .plain fun entry member => by
    obtain ⟨item, _, rfl⟩ := List.mem_map.mp member
    exact .enabledCommand _ _

/-- Commands taken under the status policy make a generated list. -/
theorem kept (context : Context) {α : Type} (items : List α) (label : α → String)
    (request : α → Request) :
    Listed (context.kept (items.map fun item => .command (label item) (request item))) :=
  .plain fun entry member => by
    obtain ⟨source, among, result⟩ := List.mem_filterMap.mp member
    obtain ⟨item, _, rfl⟩ := List.mem_map.mp among
    obtain ⟨rfl, known, _⟩ := Entry.kept_command rfl result
    exact .command rfl known rfl

end Listed

/-- The contents of a document make a generated list. -/
theorem Contents.listed_entries (document : Document) : Listed (entries document) := by
  have rest (headings : List Heading) (lists : List ContentsList) :
      let shown := lists.map (floatList document.floatTypes) ++
        if headings.isEmpty then [.placeholder "No Table of contents"] else partition 0 headings
      shown ≠ [] ∧ ∀ entry ∈ shown, Shown entry := by
    cases headings with
    | nil =>
      refine ⟨by simp, fun entry member => ?_⟩
      rcases List.mem_append.mp member with float | placeholder
      · obtain ⟨list, _, rfl⟩ := List.mem_map.mp float
        exact shown_floatList _ list
      · rw [List.mem_singleton.mp placeholder]
        exact .placeholder _
    | cons first later =>
      refine ⟨fun none => partition_ne_nil 0 (List.cons_ne_nil first later)
        (List.append_eq_nil_iff.mp none).2, fun entry member => ?_⟩
      rcases List.mem_append.mp member with float | heading
      · obtain ⟨list, _, rfl⟩ := List.mem_map.mp float
        exact shown_floatList _ list
      · exact shown_of_mem_partition heading
  obtain ⟨nonempty, shown⟩ := rest _ _
  rw [entries]
  split
  · rw [List.append_assoc]
    exact .headed (.enabledCommand _ _) nonempty shown
  · exact .plain shown

/-- The formats of every use make a generated list. -/
theorem FormatUse.listed_entries (purpose : FormatUse) (context : Context) :
    Listed (purpose.entries context) := by
  rw [entries]
  split
  · exact .placeholder _
  · split
    · exact .kept context _ _ _
    · rw [List.map_map]
      exact .enabledCommands _ _ _

/-- Whatever the application reports, each generator makes a generated list. -/
theorem Generator.listed_entries (generator : Generator) (context : Context) :
    Listed (generator.entries context) := by
  cases generator with
  | lastFiles => exact .enabledCommands _ _ _
  | documents =>
    rw [entries, Context.documentEntries]
    split
    · exact .placeholder _
    · exact .enabledCommands _ _ _
  | bookmarks => exact .enabledCommands _ _ _
  | contents => exact .withDocument context Contents.listed_entries
  | formats purpose => exact purpose.listed_entries context
  | insets family => exact .withDocument context fun document => .enabledCommands _ _ _
  | floatLists => exact .withDocument context fun document => .kept context _ _ _
  | floats => exact .withDocument context fun document => .kept context _ _ _
  | pasteRecent =>
    rw [entries, Context.pasteEntries]
    split
    · exact .plain fun entry absent => absurd absent List.not_mem_nil
    · exact .enabledCommands _ _ _
  | toolbars =>
    refine .plain fun entry member => ?_
    obtain ⟨toolbar, _, rfl⟩ := List.mem_map.mp member
    exact .command rfl rfl rfl
  | branches =>
    refine .withDocument context fun document => ?_
    split
    · exact .placeholder _
    · exact .kept context _ _ _

end Menus
