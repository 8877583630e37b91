import Menus.Proofs.Nesting
import Menus.Proofs.Separators
import Menus.Proofs.Tidying

/-!
# What each entry of a template gives

An expanded menu is put together one entry after another, and each separator is taken or left by what
stands last at that moment, before it is known what will be kept behind it. The outcome can be said
without that order. Every entry of the template has a share, which depends on this entry alone: a
command or submenu that is kept gives itself, one that is dropped gives nothing, a separator gives
itself and a generated list its entries. The expanded menu is the list of all shares, tidied: runs of
separators collapsed, and none left at the ends.

It follows where separators are left between what two entries of the template give: between two
shares with nothing kept from the entries that stand between them, one separator is left if one of
these is a separator, and none if there is none.
-/

namespace Menus

/-- The end of a menu is the end of its entries. -/
theorem Menu.endsInItem_eq (menu : Menu) :
    menu.endsInItem = Menus.endsInItem Entry.isSeparator false menu.entries := by
  rw [endsInItem]
  split
  · rename_i last final
    exact (endsInItem_of_last _ final false).symm
  · rename_i none
    rw [List.getLast?_eq_none_iff.mp none]
    rfl

/-- In entries started well at most one separator stands last, and dropping it drops all that do. -/
theorem Started.dropTrailingSeparator_eq {menu : Menu} (started : Started menu.entries) :
    menu.dropTrailingSeparator.entries = menu.entries.rdropWhile Entry.isSeparator := by
  have complete : menu.dropTrailingSeparator.entries.rdropWhile Entry.isSeparator =
      menu.dropTrailingSeparator.entries := by
    rw [List.rdropWhile_eq_self_iff]
    intro nonempty divides
    have item := started.dropTrailingSeparator.last _ (List.getLast_mem_getLast? nonempty)
    simp [item] at divides
  rw [← complete, Menu.dropTrailingSeparator]
  split
  · rename_i last final
    obtain ⟨before, held⟩ := List.getLast?_eq_some_iff.mp final
    split
    · rename_i divides
      rw [held, List.dropLast_concat, List.rdropWhile_concat_pos _ _ _ divides]
    · rfl
  · rfl

/-- Separated entries are taken as a whole. -/
theorem Separated.taken {entries : List (Entry Menu)} (separated : Separated entries)
    (behindItem : Bool) : taken Entry.isSeparator behindItem entries = entries :=
  taken_eq_self _ separated.first separated.apart behindItem

/-- Separated entries end in one that is no separator. -/
theorem Separated.exists_last {entries : List (Entry Menu)} (separated : Separated entries)
    (nonempty : entries ≠ []) :
    ∃ last, entries.getLast? = some last ∧ last.isSeparator = false :=
  ⟨_, List.getLast?_eq_some_getLast nonempty,
    separated.last _ (List.getLast_mem_getLast? nonempty)⟩

/-- A generated list is separated. -/
theorem Listed.separated {entries : List (Entry Menu)} (listed : Listed entries) :
    Separated entries := by
  refine ⟨listed.started, ?_⟩
  cases listed with
  | plain shown =>
    intro last final
    exact (shown last (List.mem_of_mem_getLast? final)).isSeparator_eq_false
  | @headed first rest firstShown nonempty shown =>
    intro last final
    have behind : last ∈ rest.getLast? := by
      rwa [List.getLast?_cons_cons, List.getLast?_cons_of_ne_nil nonempty] at final
    exact (shown last (List.mem_of_mem_getLast? behind)).isSeparator_eq_false

namespace Registry

variable (registry : Registry) (context : Context)

/-- The menu that a reference to `name` opens inside a chain: the expansion of the registered
template, or an empty menu if the chain stops the reference or nothing is registered. There is none
where the expansion does not return. -/
def opened? (chain : List String) (name : String) : Option Menu :=
  if name ∈ chain ∨ chainLimit ≤ chain.length then some (.empty name)
  else
    match registry.menu? name with
    | none => some (.empty name)
    | some template => (registry.expandWithin context levelLimit chain template).map Expanded.menu

/-- What an entry of a template gives to a menu expanded inside a chain, whatever the other entries
are. -/
def share? (chain : List String) (entry : Entry Menu) : Option (List (Entry Menu)) :=
  match entry.kind with
  | .command request =>
    let status := context.statusOf request
    if registry.exclusions.hasRequest request || status.isUnknown ||
        entry.optional && !status.isEnabled then some []
    else some [{ entry with status }]
  | .submenu name _ =>
    (registry.opened? context chain name).map fun child =>
      if entry.optional && !child.hasEnabled then []
      else
        [{ entry with
          kind := .submenu name (some child)
          status := entry.status.withEnabled child.hasEnabled }]
  | .separator => some [entry]
  | .generated generator => some (generator.entries context)

variable {registry context}

/-- The menu attached to a reference is the one the reference opens. -/
theorem opened?_of_attach? {openMenu : Menu → Option Expanded} {chain : List String}
    (opens : ∀ template expanded, openMenu template = some expanded →
      registry.expandWithin context levelLimit chain template = some expanded)
    {entry : Entry Menu} {name : String} (refers : entry.target? = some name)
    {attached : Entry Menu × List Warning}
    (result : registry.attach? openMenu chain entry = some attached) :
    ∃ child, registry.opened? context chain name = some child ∧
      attached.1 = entry.withChild child := by
  have stopped : stops chain name = true ↔ name ∈ chain ∨ chainLimit ≤ chain.length := by
    simp [stops]
  rw [opened?]
  simp only [attach?, refers, stopped] at result
  split at result
  · rename_i stop
    cases result
    exact ⟨.empty name, if_pos stop, rfl⟩
  · rename_i passed
    rw [if_neg passed]
    cases registered : registry.menu? name with
    | none =>
      simp only [registered] at result
      cases result
      exact ⟨.empty name, rfl, rfl⟩
    | some template =>
      simp only [registered] at result
      obtain ⟨expanded, opened, rfl⟩ := Option.map_eq_some_iff.mp result
      exact ⟨expanded.menu, by simp [opens _ _ opened], rfl⟩

/-- What an entry with its submenu attached contributes is the share of the entry. -/
theorem share?_of_attach? {openMenu : Menu → Option Expanded} {chain : List String}
    (opens : ∀ template expanded, openMenu template = some expanded →
      registry.expandWithin context levelLimit chain template = some expanded)
    {entry : Entry Menu} {attached : Entry Menu × List Warning}
    (result : registry.attach? openMenu chain entry = some attached) :
    registry.share? context chain entry = some (registry.contribution context attached.1) := by
  obtain ⟨kind, label, optional, status⟩ := entry
  cases kind with
  | submenu name former =>
    obtain ⟨child, opened, same⟩ := opened?_of_attach? opens (by rfl) result
    rw [same]
    simp only [share?, opened, Option.map_some, contribution, Entry.withChild, Entry.kept?]
    by_cases dropped : (optional && !child.hasEnabled) = true <;> simp [dropped]
  | command request =>
    rw [attach?_of_no_target rfl] at result
    cases result
    by_cases excluded : registry.exclusions.hasRequest request
    · simp [share?, contribution, excluded]
    · simp only [share?, contribution, excluded, Entry.kept?, Bool.false_or]
      split <;> simp_all
  | separator | generated generator =>
    rw [attach?_of_no_target rfl] at result
    cases result
    rfl

/-- The share of an entry that is no separator is separated. -/
theorem separated_share {chain : List String} {entry : Entry Menu} {share : List (Entry Menu)}
    (item : entry.isSeparator = false)
    (given : registry.share? context chain entry = some share) : Separated share := by
  have empty : Separated ([] : List (Entry Menu)) :=
    separated_of_items fun _ absent => absurd absent List.not_mem_nil
  rw [share?] at given
  split at given
  · rename_i request runs
    dsimp only at given
    split at given <;> cases given
    · exact empty
    · exact separated_of_items (List.forall_mem_singleton.mpr (by simp [Entry.isSeparator, runs]))
  · obtain ⟨child, _, rfl⟩ := Option.map_eq_some_iff.mp given
    split
    · exact empty
    · exact separated_of_items (List.forall_mem_singleton.mpr rfl)
  · rename_i divides
    simp [Entry.isSeparator, divides] at item
  · cases given
    exact (Generator.listed_entries _ context).separated

/-- The share of a separator is the separator. -/
theorem share?_of_separator {chain : List String} {entry : Entry Menu}
    (divides : entry.isSeparator = true) :
    registry.share? context chain entry = some [entry] := by
  cases kind : entry.kind <;> simp_all [Entry.isSeparator, share?]

variable (registry context)

/-- Placing an entry takes what it contributes. -/
theorem entries_place {menu : Menu} {before : List (Entry Menu)}
    (held : menu.entries = taken Entry.isSeparator false before) (entry : Entry Menu) :
    (registry.place context menu entry).entries =
      taken Entry.isSeparator false (before ++ registry.contribution context entry) := by
  have ending : menu.endsInItem = endsInItem Entry.isSeparator false before := by
    rw [Menu.endsInItem_eq, held, endsInItem_taken]
  rw [place_eq, taken_append, ← held, ← ending]
  cases divides : entry.isSeparator with
  | false =>
    have started := registry.started_contribution context divides
    rw [taken_eq_self _ started.first started.apart]
    rfl
  | true =>
    rw [contribution_of_separator registry context divides]
    cases behind : menu.endsInItem <;> simp [taken, divides]

/-- A menu put together holds all contributions, tidied. -/
theorem entries_assemble (name : String) (entries : List (Entry Menu)) :
    (registry.assemble context name entries).entries =
      tidied Entry.isSeparator (entries.flatMap (registry.contribution context)) := by
  have placed (entries before : List (Entry Menu)) (menu : Menu)
      (held : menu.entries = taken Entry.isSeparator false before) :
      (entries.foldl (registry.place context) menu).entries =
        taken Entry.isSeparator false
          (before ++ entries.flatMap (registry.contribution context)) := by
    induction entries generalizing before menu with
    | nil => simpa using held
    | cons entry rest inductionHypothesis =>
      rw [List.foldl_cons, List.flatMap_cons, ← List.append_assoc]
      exact inductionHypothesis _ _ (registry.entries_place context held entry)
  have fresh : Started (Menu.empty name).entries :=
    (separated_of_items fun _ absent => absurd absent List.not_mem_nil).toStarted
  have started := registry.started_foldl_place context fresh entries
  rw [assemble, started.dropTrailingSeparator_eq, placed entries [] _ rfl, taken_false_eq]
  rfl

variable {registry context}

/-- Inside any chain, an expansion that returns gives the shares of the entries of its template,
tidied. -/
theorem entries_of_expandWithin {levels : Nat} {chain : List String} {source : Menu}
    {expanded : Expanded}
    (returned : registry.expandWithin context levels chain source = some expanded) :
    ∃ shares,
      source.entries.mapM (registry.share? context (chainInside chain source.name)) = some shares ∧
        expanded.menu.entries = tidied Entry.isSeparator shares.flatten := by
  cases levels with
  | zero => simp [expandWithin] at returned
  | succ levels =>
    rw [expandWithin] at returned
    obtain ⟨attached, mapped, rfl⟩ := Option.map_eq_some_iff.mp returned
    refine ⟨_, mapM_eq_some_map _ (fun entry _ _ => share?_of_attach? ?_) mapped, ?_⟩
    · intro template inner opens
      exact expandWithin_levelLimit opens
    · rw [entries_assemble, List.flatMap_map]
      rfl

end Registry

/-- Two entries of a template are neighbours when they are no separators, both give something, and
what stands between them are separators and entries that give nothing. The template is given with the
shares of its entries. -/
structure Neighbours (sources before between after : List (Entry Menu × List (Entry Menu)))
    (first second : Entry Menu × List (Entry Menu)) : Prop where
  stand : sources = before ++ first :: between ++ second :: after
  firstItem : first.1.isSeparator = false
  firstGives : first.2 ≠ []
  secondItem : second.1.isSeparator = false
  secondGives : second.2 ≠ []
  apart : ∀ source ∈ between, source.1.isSeparator = true ∨ source.2 = []

/-- What is between neighbours gives the separators between them. -/
theorem flatMap_between {registry : Registry} {context : Context} {chain : List String}
    {between : List (Entry Menu × List (Entry Menu))}
    (given : ∀ source ∈ between, registry.share? context chain source.1 = some source.2)
    (apart : ∀ source ∈ between, source.1.isSeparator = true ∨ source.2 = []) :
    between.flatMap Prod.snd = (between.map Prod.fst).filter Entry.isSeparator := by
  induction between with
  | nil => rfl
  | cons source rest inductionHypothesis =>
    rw [List.forall_mem_cons] at given apart
    rw [List.flatMap_cons, List.map_cons, inductionHypothesis given.2 apart.2]
    cases divides : source.1.isSeparator with
    | true =>
      have alone := (Registry.share?_of_separator divides).symm.trans given.1
      rw [← Option.some.inj alone, List.filter_cons_of_pos divides]
      rfl
    | false =>
      have nothing : source.2 = [] := by simpa [divides] using apart.1
      rw [nothing, List.filter_cons_of_neg (by simp [divides])]
      rfl

/-- The entries of an expanded menu are the shares of the entries of its template, each found without
regard to the others, in one list with every run of separators collapsed to its first and none left
at either end. What two neighbouring entries of the template give stands in it unchanged, with a
separator between exactly if there is one between them in the template, and then the first of these.

Proof: what is placed is what is taken of the contributions, which are the shares. Of each share the
whole is taken wherever it stands, so the shares of neighbours are found again in the tidied list. -/
theorem expanded_entries_are_tidied_shares (registry : Registry) (context : Context) (source : Menu)
    (expanded : Expanded) (returned : registry.expand? context source = some expanded) :
    ∃ shares,
      source.entries.mapM (registry.share? context (Registry.chainInside [] source.name)) =
          some shares ∧
        expanded.menu.entries = tidied Entry.isSeparator shares.flatten ∧
        ∀ before between after first second,
          Neighbours (source.entries.zip shares) before between after first second →
            ∃ behind, expanded.menu.entries =
              headed Entry.isSeparator (before.flatMap Prod.snd) ++ first.2 ++
                ((between.map Prod.fst).find? Entry.isSeparator).toList ++ second.2 ++ behind := by
  obtain ⟨shares, mapped, entries⟩ := Registry.entries_of_expandWithin returned
  refine ⟨shares, mapped, entries, ?_⟩
  intro before between after first second neighbours
  obtain ⟨sameLength, given⟩ := List.forall₂_iff_zip.mp (forall₂_of_mapM mapped)
  rw [neighbours.stand] at given
  have ofFirst : registry.share? context _ first.1 = some first.2 := given (by simp)
  have ofSecond : registry.share? context _ second.1 = some second.2 := given (by simp)
  have firstApart := Registry.separated_share neighbours.firstItem ofFirst
  have secondApart := Registry.separated_share neighbours.secondItem ofSecond
  have dividers := flatMap_between (fun source member => given (by simp [member])) neighbours.apart
  have joined : shares.flatten = before.flatMap Prod.snd ++ first.2 ++
      (between.map Prod.fst).filter Entry.isSeparator ++ second.2 ++ after.flatMap Prod.snd := by
    rw [← dividers, ← List.map_snd_zip (Nat.le_of_eq sameLength.symm), neighbours.stand]
    simp [List.flatMap_def]
  obtain ⟨firstLast, firstEnds, firstItem⟩ := firstApart.exists_last neighbours.firstGives
  obtain ⟨secondLast, secondEnds, secondItem⟩ := secondApart.exists_last neighbours.secondGives
  rw [entries, joined, ← List.head?_filter]
  exact tidied_pieces _ firstApart.taken firstEnds firstItem
    (fun entry member => (List.mem_filter.mp member).2) secondApart.taken secondEnds secondItem

/-- A template with separators at its ends and in a row, around a command that is dropped and a
generated list that is empty, and with a list that holds a separator of its own. -/
def mixedTemplate : Menu :=
  ⟨"", [.separator, .submenu "Again" "again", .separator, .command "Lost" (.ofMenu "lost" ""),
    .separator, { kind := .generated .contents }, .command "Run" (.ofMenu "run" ""), .separator,
    { kind := .generated .bookmarks }, .separator]⟩

/-- The menu that the mixed template refers to. It refers to itself. -/
def mixedRegistry : Registry :=
  { menus := [⟨"again", [.separator, .submenu "Again" "again"]⟩] }

/-- A part of a larger document is open, and one command is not known. -/
def mixedContext : Context where
  statusOf request := if request.action = "lost" then {} else .enabled
  document := some { master := some (.ofMenu "buffer-switch" "book") }

/-- The mixed template is expanded to the shares of its entries. Of the separators between the
submenu and the contents the first is left, and none is put between the contents and the command. -/
theorem mixed_template_is_tidied :
    ∃ expanded shares, mixedRegistry.expand? mixedContext mixedTemplate = some expanded ∧
      expanded.menu.entries.map Entry.label =
        ["Again", "", "Master Document", "", "No Table of contents", "Run"] ∧
      mixedTemplate.entries.mapM (mixedRegistry.share? mixedContext []) = some shares ∧
      shares.map (fun share => share.map Entry.label) =
        [[""], ["Again"], [""], [], [""], ["Master Document", "", "No Table of contents"], ["Run"],
          [""], [], [""]] ∧
      expanded.menu.entries = tidied Entry.isSeparator shares.flatten ∧
      ∃ before between after first second,
        Neighbours (mixedTemplate.entries.zip shares) before between after first second ∧
          between.map (fun source => source.2.length) = [1, 0, 1] ∧
          ∃ behind, expanded.menu.entries =
            headed Entry.isSeparator (before.flatMap Prod.snd) ++ first.2 ++
              ((between.map Prod.fst).find? Entry.isSeparator).toList ++ second.2 ++ behind := by
  obtain ⟨expanded, returned, labels⟩ :
      ∃ expanded, mixedRegistry.expand? mixedContext mixedTemplate = some expanded ∧
        expanded.menu.entries.map Entry.label =
          ["Again", "", "Master Document", "", "No Table of contents", "Run"] := ⟨_, rfl, rfl⟩
  obtain ⟨shares, mapped, entries, divided⟩ :=
    expanded_entries_are_tidied_shares mixedRegistry mixedContext mixedTemplate expanded returned
  obtain ⟨known, evaluated, given, neighbours⟩ :
      ∃ known,
        mixedTemplate.entries.mapM (mixedRegistry.share? mixedContext []) = some known ∧
          known.map (fun share => share.map Entry.label) =
            [[""], ["Again"], [""], [], [""], ["Master Document", "", "No Table of contents"],
              ["Run"], [""], [], [""]] ∧
          ∃ before between after first second,
            Neighbours (mixedTemplate.entries.zip known) before between after first second ∧
              between.map (fun source => source.2.length) = [1, 0, 1] :=
    ⟨_, rfl, rfl, [_], [_, _, _], _, _, _,
      ⟨rfl, rfl, List.cons_ne_nil _ _, rfl, List.cons_ne_nil _ _, by decide⟩, rfl⟩
  obtain rfl : shares = known := Option.some.inj (mapped.symm.trans evaluated)
  obtain ⟨before, between, after, first, second, apart, lengths⟩ := neighbours
  exact ⟨expanded, shares, returned, labels, mapped, given, entries, before, between, after, first,
    second, apart, lengths, divided _ _ _ _ _ apart⟩

end Menus
