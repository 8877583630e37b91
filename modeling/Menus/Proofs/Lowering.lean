import Mathlib.Order.Basic
import Menus.Proofs.Shares
import Menus.Proofs.Thinning

/-!
# Commands that become less available

A command that is disabled or no longer known may be dropped from a menu. Then the menu can be left
with nothing enabled, the submenu that opens it is disabled or dropped in turn, and separators meet
and are dropped too. However many commands become less available at once, this is all that happens:
the menus of the expanded tree lose entries, and what remains is what was there before, in the order
in which it stood and under the labels it had. No separator and no submenu comes back because others
are gone, and no entry becomes more available.

The proof goes along the expansion. What the entries of a template contribute is thinned, if their
attached menus have only lost entries; tidying a thinned list loses entries only; and a menu that
has lost entries has nothing enabled that was not enabled.
-/

namespace Menus

namespace Availability

/-- The place of an availability among the three. -/
def rank : Availability → Nat
  | unknown => 0
  | disabled => 1
  | enabled => 2

/-- Unknown is below disabled, and disabled is below enabled. -/
instance : Preorder Availability := Preorder.lift rank

instance : DecidableLE Availability :=
  fun lower upper => inferInstanceAs (Decidable (lower.rank ≤ upper.rank))

/-- Nothing is above enabled. -/
theorem eq_enabled_of_le {upper : Availability} (below : enabled ≤ upper) : upper = enabled := by
  revert below
  cases upper <;> decide

/-- Nothing is below unknown. -/
theorem eq_unknown_of_le {lower : Availability} (below : lower ≤ unknown) : lower = unknown := by
  revert below
  cases lower <;> decide

end Availability

namespace Status

variable {lower upper : Status} (below : lower.availability ≤ upper.availability)
include below

/-- What is at least as available as something enabled is enabled. -/
theorem isEnabled_of_le (enabled : lower.isEnabled = true) : upper.isEnabled = true := by
  rw [isEnabled, beq_iff_eq] at enabled ⊢
  rw [enabled] at below
  exact Availability.eq_enabled_of_le below

/-- What is at least as available as something known is known. -/
theorem isUnknown_eq_false_of_le (known : lower.isUnknown = false) : upper.isUnknown = false := by
  rw [isUnknown, beq_eq_false_iff_ne] at known ⊢
  intro unknown
  rw [unknown] at below
  exact known (Availability.eq_unknown_of_le below)

omit below

/-- Statuses made known compare as they are enabled. -/
theorem withEnabled_le {isEnabled wasEnabled : Bool}
    (enabled : isEnabled = true → wasEnabled = true) :
    (lower.withEnabled isEnabled).availability ≤ (upper.withEnabled wasEnabled).availability := by
  simp only [withEnabled]
  revert isEnabled wasEnabled
  decide

end Status

/-- One line in two menus: it says the same in both, and is at most as available in the first. -/
structure Entry.AtMost (left entry : Entry Menu) : Prop where
  label : left.label = entry.label
  optional : left.optional = entry.optional
  available : left.status.availability ≤ entry.status.availability

/-- What remains of an entry when commands become less available: the entry, at most as available as
before, and in the menu it opens some of the entries, as far as they remain. -/
inductive Entry.Remains : Entry Menu → Entry Menu → Prop where
  | same {left entry : Entry Menu} (line : left.AtMost entry) (kind : left.kind = entry.kind) :
      Remains left entry
  | opened {left entry : Entry Menu} {name : String} {part whole : Menu} (line : left.AtMost entry)
      (opensPart : left.kind = .submenu name (some part))
      (opensWhole : entry.kind = .submenu name (some whole)) (named : part.name = whole.name)
      (inside : List.SublistForall₂ Remains part.entries whole.entries) : Remains left entry

/-- What remains of a menu: some of its entries in their order, as far as they remain. -/
structure Menu.Remains (part whole : Menu) : Prop where
  name : part.name = whole.name
  entries : List.SublistForall₂ Entry.Remains part.entries whole.entries

namespace Entry.Remains

variable {left entry : Entry Menu}

/-- The whole entry remains of itself. -/
theorem refl (entry : Entry Menu) : entry.Remains entry :=
  .same ⟨rfl, rfl, le_refl _⟩ rfl

/-- What remains is a line that says the same. -/
theorem line (remains : left.Remains entry) : left.AtMost entry := by
  cases remains with
  | same line => exact line
  | opened line => exact line

/-- A separator remains of a separator only. -/
theorem isSeparator_eq (remains : left.Remains entry) : left.isSeparator = entry.isSeparator := by
  cases remains with
  | same _ kind => simp only [isSeparator, kind]
  | opened _ opensPart opensWhole => simp only [isSeparator, opensPart, opensWhole]

/-- What can be chosen remains of what can be chosen, and was enabled if it is. -/
theorem usable (remains : left.Remains entry)
    (usable : ((left.isCommand || left.isSubmenu) && left.status.isEnabled) = true) :
    ((entry.isCommand || entry.isSubmenu) && entry.status.isEnabled) = true := by
  rw [Bool.and_eq_true] at usable ⊢
  refine ⟨?_, Status.isEnabled_of_le remains.line.available usable.2⟩
  cases remains with
  | same _ kind => simpa only [isCommand, isSubmenu, request?, target?, kind] using usable.1
  | opened _ opensPart opensWhole => simp [isSubmenu, target?, opensWhole]

/-- Statuses that compare can be put in. -/
theorem withStatus (remains : left.Remains entry) {lower upper : Status}
    (below : lower.availability ≤ upper.availability) :
    Remains { left with status := lower } { entry with status := upper } := by
  have compared : AtMost { left with status := lower } { entry with status := upper } :=
    ⟨remains.line.label, remains.line.optional, below⟩
  cases remains with
  | same _ kind => exact .same compared kind
  | opened _ opensPart opensWhole named inside =>
    exact .opened compared opensPart opensWhole named inside

/-- An entry to which less is attached remains of the entry to which all is attached. -/
theorem withChild (entry : Entry Menu) {part whole : Menu} (remains : part.Remains whole) :
    (entry.withChild part).Remains (entry.withChild whole) := by
  cases kind : entry.kind with
  | submenu name child =>
    simp only [Entry.withChild, kind]
    exact .opened ⟨rfl, rfl, le_refl _⟩ rfl rfl remains.name remains.entries
  | command | separator | generated =>
    simp only [Entry.withChild, kind]
    exact refl entry

end Entry.Remains

/-- Entries left out and left as far as they remain, but every separator is there. -/
abbrev ThinnedEntries : List (Entry Menu) → List (Entry Menu) → Prop :=
  Thinned Entry.isSeparator Entry.Remains

/-- A menu of which something enabled remains had something enabled. -/
theorem hasEnabled_of_remains {part whole : Menu}
    (remains : List.SublistForall₂ Entry.Remains part.entries whole.entries)
    (enabled : part.hasEnabled = true) : whole.hasEnabled = true := by
  rw [Menu.hasEnabled, List.any_eq_true] at enabled ⊢
  obtain ⟨left, member, usable⟩ := enabled
  obtain ⟨entry, among, relates⟩ := exists_of_mem_sublistForall₂ remains member
  exact ⟨entry, among, relates.usable usable⟩

section Kept

variable {statusOf lowered : Request → Status}

/-- The status policy keeps a command that is known, and enabled if it is optional. -/
theorem Entry.kept?_of_command {entry : Entry Menu} {request : Request}
    (runs : entry.kind = .command request) (known : (statusOf request).isUnknown = false)
    (usable : entry.optional = true → (statusOf request).isEnabled = true) :
    entry.kept? statusOf = some { entry with status := statusOf request } := by
  have passed : ((statusOf request).isUnknown ||
      (entry.optional && !(statusOf request).isEnabled)) = false := by
    simpa [known] using usable
  simp only [kept?, runs, passed]
  rw [← runs]
  rfl

/-- The status policy keeps a submenu that is not optional or has something enabled in its menu. -/
theorem Entry.kept?_of_submenu {entry : Entry Menu} {name : String} {menu : Menu}
    (opens : entry.kind = .submenu name (some menu))
    (usable : entry.optional = true → menu.hasEnabled = true) :
    entry.kept? statusOf =
      some { entry with status := entry.status.withEnabled menu.hasEnabled } := by
  have passed : (entry.optional && !menu.hasEnabled) = false := by simpa using usable
  simp only [kept?, opens, passed]
  rw [← opens]
  rfl

variable {left entry : Entry Menu}

/-- If what remains of a submenu is kept, the submenu is kept. -/
theorem Entry.Remains.exists_kept_submenu (remains : left.Remains entry) {name : String}
    {part whole : Menu} (opensPart : left.kind = .submenu name (some part))
    (opensWhole : entry.kind = .submenu name (some whole))
    (enabled : part.hasEnabled = true → whole.hasEnabled = true) {kept : Entry Menu}
    (result : left.kept? lowered = some kept) :
    ∃ item, entry.kept? statusOf = some item ∧ kept.Remains item := by
  obtain ⟨rfl, usable⟩ := Entry.kept_submenu opensPart result
  refine ⟨_, Entry.kept?_of_submenu opensWhole ?_,
    remains.withStatus (Status.withEnabled_le enabled)⟩
  rw [← remains.line.optional]
  exact fun optional => enabled (usable optional)

variable (lower : ∀ request, (lowered request).availability ≤ (statusOf request).availability)
include lower

/-- If what remains of an entry is kept where commands are less available, the entry is kept where
they are not, and its status is at least as available. -/
theorem Entry.Remains.exists_kept (remains : left.Remains entry) {kept : Entry Menu}
    (result : left.kept? lowered = some kept) :
    ∃ item, entry.kept? statusOf = some item ∧ kept.Remains item := by
  cases remains with
  | opened line opensPart opensWhole named inside =>
    have remains : left.Remains entry := .opened line opensPart opensWhole named inside
    exact remains.exists_kept_submenu opensPart opensWhole (hasEnabled_of_remains inside) result
  | same line kind =>
    have remains : left.Remains entry := .same line kind
    cases sort : left.kind with
    | command request =>
      have below := lower request
      obtain ⟨rfl, known, usable⟩ := Entry.kept_command sort result
      refine ⟨_, Entry.kept?_of_command (kind.symm.trans sort)
        (Status.isUnknown_eq_false_of_le below known) ?_, remains.withStatus below⟩
      rw [← line.optional]
      exact fun optional => Status.isEnabled_of_le below (usable optional)
    | submenu name child =>
      cases child with
      | some menu =>
        -- One menu is attached to both, as where the reference enters no template.
        exact remains.exists_kept_submenu sort (kind.symm.trans sort) id result
      | none =>
        simp only [Entry.kept?, sort, ← kind, Option.some.injEq] at result ⊢
        exact ⟨entry, rfl, result ▸ remains⟩
    | separator | generated =>
      simp only [Entry.kept?, sort, ← kind, Option.some.injEq] at result ⊢
      exact ⟨entry, rfl, result ▸ remains⟩

/-- The status policy thins what it is applied to. -/
theorem Entry.Remains.thinned_kept (remains : left.Remains entry) :
    ThinnedEntries (left.kept? lowered).toList (entry.kept? statusOf).toList := by
  refine Thinned.toList (fun kept result => remains.exists_kept lower result) ?_
  intro dropped item result
  have sort : item.isSeparator = left.isSeparator := by
    rw [remains.isSeparator_eq, Entry.isSeparator, Entry.isSeparator, Entry.kind_of_kept result]
  rw [sort]
  cases kind : left.kind with
  | separator => simp [Entry.kept?, kind] at dropped
  | command | submenu | generated => simp [Entry.isSeparator, kind]

end Kept

/-- The context with other statuses of commands. -/
def Context.reporting (context : Context) (statusOf : Request → Status) : Context :=
  { context with statusOf }

@[simp] theorem Context.statusOf_reporting (context : Context) (statusOf : Request → Status) :
    (context.reporting statusOf).statusOf = statusOf := rfl

@[simp] theorem Context.document_reporting (context : Context) (statusOf : Request → Status) :
    (context.reporting statusOf).document = context.document := rfl

section Expansion

variable {registry : Registry} {context : Context} {lowered : Request → Status}
variable
  (lower : ∀ request, (lowered request).availability ≤ (context.statusOf request).availability)
include lower

/-- What the status policy keeps of a list is thinned. -/
theorem thinned_keptAll (entries : List (Entry Menu)) :
    ThinnedEntries ((context.reporting lowered).kept entries) (context.kept entries) := by
  rw [Context.kept, Context.kept, List.filterMap_eq_flatMap_toList,
    List.filterMap_eq_flatMap_toList]
  exact Thinned.flatMap (fun _ _ remains => remains.thinned_kept lower)
    (List.forall₂_same.mpr fun entry _ => Entry.Remains.refl entry)

omit lower in
/-- A list that needs a document is thinned if it is for every document. -/
theorem thinned_withDocument {part whole : Document → List (Entry Menu)}
    (thinned : ∀ document, ThinnedEntries (part document) (whole document)) :
    ThinnedEntries ((context.reporting lowered).withDocument part)
      (context.withDocument whole) := by
  rw [Context.withDocument, Context.withDocument, Context.document_reporting]
  cases context.document with
  | none => exact Thinned.refl Entry.Remains.refl _
  | some document => exact thinned document

/-- The formats for a use are thinned. Which formats are reported does not depend on statuses. -/
theorem thinned_formats (purpose : FormatUse) :
    ThinnedEntries (purpose.entries (context.reporting lowered)) (purpose.entries context) := by
  have reported : purpose.reported? (context.reporting lowered) = purpose.reported? context := by
    cases purpose <;> rfl
  rw [FormatUse.entries, FormatUse.entries, reported]
  cases purpose.reported? context with
  | none => exact Thinned.refl Entry.Remains.refl _
  | some formats =>
    rw [Context.document_reporting]
    dsimp only
    split
    · exact thinned_keptAll lower _
    · exact Thinned.refl Entry.Remains.refl _

/-- Generated lists are thinned: some are kept under the status policy, the others do not depend on
statuses. -/
theorem thinned_generated (generator : Generator) :
    ThinnedEntries (generator.entries (context.reporting lowered)) (generator.entries context) := by
  cases generator with
  | lastFiles | documents | bookmarks | contents | insets | pasteRecent | toolbars =>
    exact Thinned.refl Entry.Remains.refl _
  | formats purpose => exact thinned_formats lower purpose
  | floatLists | floats => exact thinned_withDocument fun document => thinned_keptAll lower _
  | branches =>
    refine thinned_withDocument fun document => ?_
    split
    · exact Thinned.refl Entry.Remains.refl _
    · exact thinned_keptAll lower _

/-- What the entries of a template contribute is thinned, if their attached menus remain. -/
theorem thinned_contribution {left entry : Entry Menu} (remains : left.Remains entry) :
    ThinnedEntries (registry.contribution (context.reporting lowered) left)
      (registry.contribution context entry) := by
  have kept := remains.thinned_kept lower
  cases remains with
  | opened _ opensPart opensWhole =>
    simpa only [Registry.contribution, opensPart, opensWhole, Context.statusOf_reporting] using kept
  | same _ kind =>
    rw [Registry.contribution, Registry.contribution, kind]
    cases entry.kind with
    | command request =>
      dsimp only
      split
      · exact .nil
      · exact kept
    | submenu | separator => exact kept
    | generated generator => exact thinned_generated lower generator

/-- A menu put together remains of the menu put together from the entries to which the whole menus
are attached. -/
theorem assemble_remains (name : String) {part whole : List (Entry Menu)}
    (remain : List.Forall₂ Entry.Remains part whole) :
    (registry.assemble (context.reporting lowered) name part).Remains
      (registry.assemble context name whole) where
  name := by rw [Registry.name_assemble, Registry.name_assemble]
  entries := by
    rw [Registry.entries_assemble, Registry.entries_assemble]
    refine Thinned.tidied (fun _ _ remains => remains.isSeparator_eq) ?_
    exact Thinned.flatMap (fun _ _ remains => thinned_contribution lower remains) remain

omit lower in
/-- What is attached to an entry remains, if what opening templates gives does. -/
theorem attached_remains {openPart openWhole : Menu → Option Expanded} {chain : List String}
    (opens : ∀ template part whole, openPart template = some part →
      openWhole template = some whole → part.menu.Remains whole.menu)
    {entry : Entry Menu} {part whole : Entry Menu × List Warning}
    (attachedPart : registry.attach? openPart chain entry = some part)
    (attachedWhole : registry.attach? openWhole chain entry = some whole) :
    part.1.Remains whole.1 := by
  cases entered : registry.entered? chain entry with
  | none =>
    obtain ⟨result, attached⟩ := Registry.attach?_of_not_entered entered
    rw [attached, Option.some.injEq] at attachedPart attachedWhole
    rw [← attachedPart, ← attachedWhole]
    exact Entry.Remains.refl _
  | some template =>
    rw [Registry.attach?_of_entered entered, Option.map_eq_some_iff] at attachedPart attachedWhole
    obtain ⟨smaller, openedPart, rfl⟩ := attachedPart
    obtain ⟨larger, openedWhole, rfl⟩ := attachedWhole
    exact Entry.Remains.withChild entry (opens template smaller larger openedPart openedWhole)

/-- Inside any chain, the menu expanded where commands are less available remains of the menu
expanded where they are not.

Proof: by induction on the levels. The menus attached to the entries of the template remain, so the
menu put together from these entries does. -/
theorem expandWithin_remains (levels : Nat) {chain : List String} {source : Menu}
    {part whole : Expanded}
    (expandedPart :
      registry.expandWithin (context.reporting lowered) levels chain source = some part)
    (expandedWhole : registry.expandWithin context levels chain source = some whole) :
    part.menu.Remains whole.menu := by
  induction levels generalizing chain source part whole with
  | zero => simp [Registry.expandWithin] at expandedPart
  | succ levels inductionHypothesis =>
    rw [Registry.expandWithin, Option.map_eq_some_iff] at expandedPart expandedWhole
    obtain ⟨attachedPart, mappedPart, rfl⟩ := expandedPart
    obtain ⟨attachedWhole, mappedWhole, rfl⟩ := expandedWhole
    apply assemble_remains lower
    rw [List.forall₂_map_left_iff, List.forall₂_map_right_iff]
    refine forall₂_of_mapM_mapM ?_ mappedPart mappedWhole
    intro entry _ smaller larger atPart atWhole
    refine attached_remains ?_ atPart atWhole
    intro template openedPart openedWhole
    exact inductionHypothesis

end Expansion

/-- Commands that become less available only take entries away from the menus of an expanded tree.
What remains is in the order in which it stood and says what it said, separators and submenus among
it, and nothing of it is more available than it was. The expansion comes to an end as before. -/
theorem lowering_only_takes_away (registry : Registry) (context : Context)
    (lowered : Request → Status) (source : Menu)
    (lower : ∀ request,
      (lowered request).availability ≤ (context.statusOf request).availability)
    (expanded : Expanded) (returned : registry.expand? context source = some expanded) :
    ∃ remaining, registry.expand? (context.reporting lowered) source = some remaining ∧
      remaining.menu.Remains expanded.menu := by
  have ends := (Registry.expand?_returns_iff context source).mp ⟨expanded, returned⟩
  obtain ⟨remaining, alsoReturned⟩ :=
    (Registry.expand?_returns_iff (context.reporting lowered) source).mpr ends
  exact ⟨remaining, alsoReturned, expandWithin_remains lower _ alsoReturned returned⟩

/-- A menu bar with two levels of optional submenus, a submenu that is not optional and a generated
list. -/
def layeredTemplate : Menu :=
  ⟨"", [.command "Run" (.ofMenu "run" ""), .separator,
    { Entry.submenu "Tools" "tools" with optional := true }, .separator,
    { kind := .generated .floats }, .separator, .submenu "Idle" "idle"]⟩

/-- The menus that the layered template opens. The same command stands in two of them. -/
def layeredRegistry : Registry where
  menus :=
    [⟨"tools", [{ Entry.submenu "Inner" "inner" with optional := true }]⟩,
      ⟨"inner", [.command "Stuck" (.ofMenu "stuck" "")]⟩,
      ⟨"idle", [.command "Stuck" (.ofMenu "stuck" "")]⟩]

/-- A document with one type of floats is open and every command can run. -/
def layeredContext : Context where
  statusOf _ := .enabled
  document := some { floatTypes := [⟨"figure", "Figure", "Figures"⟩] }

/-- Floats are not known any more and one command is disabled. -/
def layeredStatus (request : Request) : Status :=
  if request.action = "float-insert" then {}
  else if request.action = "stuck" then .disabled else .enabled

/-- One disabled command takes away the optional submenu that leads to it through another one, and
disables the submenu that is not optional. With the floats gone, one separator remains of three. -/
theorem lowering_takes_away_layers :
    (∀ request, (layeredStatus request).availability ≤
        (layeredContext.statusOf request).availability) ∧
      ∃ expanded remaining,
        layeredRegistry.expand? layeredContext layeredTemplate = some expanded ∧
        (expanded.menu.entries.map fun entry => (entry.label, entry.status.availability)) =
          [("Run", .enabled), ("", .unknown), ("Tools", .enabled), ("", .unknown),
            ("Figure", .enabled), ("", .unknown), ("Idle", .enabled)] ∧
        layeredRegistry.expand? (layeredContext.reporting layeredStatus) layeredTemplate =
          some remaining ∧
        (remaining.menu.entries.map fun entry => (entry.label, entry.status.availability)) =
          [("Run", .enabled), ("", .unknown), ("Idle", .disabled)] ∧
        remaining.menu.Remains expanded.menu := by
  have lower : ∀ request, (layeredStatus request).availability ≤
      (layeredContext.statusOf request).availability := by
    intro request
    change _ ≤ Availability.enabled
    cases (layeredStatus request).availability <;> decide
  obtain ⟨expanded, returned, whole⟩ :
      ∃ expanded, layeredRegistry.expand? layeredContext layeredTemplate = some expanded ∧
        (expanded.menu.entries.map fun entry => (entry.label, entry.status.availability)) =
          [("Run", .enabled), ("", .unknown), ("Tools", .enabled), ("", .unknown),
            ("Figure", .enabled), ("", .unknown), ("Idle", .enabled)] := ⟨_, rfl, rfl⟩
  obtain ⟨known, evaluated, part⟩ :
      ∃ known, layeredRegistry.expand? (layeredContext.reporting layeredStatus) layeredTemplate =
          some known ∧
        (known.menu.entries.map fun entry => (entry.label, entry.status.availability)) =
          [("Run", .enabled), ("", .unknown), ("Idle", .disabled)] := ⟨_, rfl, rfl⟩
  obtain ⟨remaining, alsoReturned, remains⟩ := lowering_only_takes_away layeredRegistry
    layeredContext layeredStatus layeredTemplate lower expanded returned
  obtain rfl : remaining = known := Option.some.inj (alsoReturned.symm.trans evaluated)
  exact ⟨lower, expanded, remaining, returned, whole, alsoReturned, part, remains⟩

end Menus
