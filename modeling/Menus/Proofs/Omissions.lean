import Menus.Proofs.Exclusions
import Menus.Proofs.Origins
import Menus.Proofs.Submenus

/-!
# Excluded commands that are shown

The commands of the exclusion menu are to be left out of every expanded menu. An expansion compares
the commands of templates with them, and no such command is shown, at any depth. It does not compare
the commands of generated lists. So a list that has a command of the exclusion menu shows it, and the
commands are left out exactly of the trees whose generated lists have none of them.

A placeholder in a list without content does nothing and cannot be chosen. It does not count, whether
or not the exclusion menu has its request.
-/

namespace Menus

/-- The command is excluded and is no placeholder. -/
def Entry.Escapes (exclusions : Menu) (entry : Entry Menu) : Prop :=
  entry.Excluded exclusions ∧ ∀ label, entry ≠ .placeholder label

/-- The commands of the exclusion menu are left out of every menu of the tree. -/
def Menu.LeavesOut (menu exclusions : Menu) : Prop :=
  menu.Everywhere fun inner => ∀ entry ∈ inner.entries, ¬entry.Escapes exclusions

/-- The entry is none of the commands left out, and neither are those in the tree below it. -/
def Entry.LeavesOut (exclusions : Menu) (entry : Entry Menu) : Prop :=
  ¬entry.Escapes exclusions ∧ ∀ child, entry.child? = some child → child.LeavesOut exclusions

/-- Commands are left out of a tree if they are left out with each entry of the menu on top. -/
theorem Menu.leavesOut_iff {exclusions menu : Menu} :
    menu.LeavesOut exclusions ↔ ∀ entry ∈ menu.entries, entry.LeavesOut exclusions := by
  constructor
  · intro leavesOut entry member
    refine ⟨leavesOut.top entry member, ?_⟩
    intro child attached inner deeper
    exact leavesOut inner (.through member attached deeper)
  · intro each
    apply Menu.everywhere_of_children
    · exact fun entry member => (each entry member).1
    · exact fun entry member => (each entry member).2

namespace Registry

variable {registry : Registry} {context : Context} {chain : List String}

/-- A reference opens an empty menu, or enters a template and opens what that is expanded to. -/
theorem opened?_eq_some {entry : Entry Menu} {name : String} {child : Menu}
    (refers : entry.target? = some name)
    (opened : registry.opened? context chain name = some child) :
    child = .empty name ∨ ∃ template expanded, registry.entered? chain entry = some template ∧
      registry.expandWithin context levelLimit chain template = some expanded ∧
        child = expanded.menu := by
  rw [opened?] at opened
  split at opened
  · exact .inl (Option.some.inj opened).symm
  · rename_i passed
    split at opened
    · exact .inl (Option.some.inj opened).symm
    · rename_i template registered
      obtain ⟨expanded, returned, rfl⟩ := Option.map_eq_some_iff.mp opened
      have same := name_of_menu? registered
      subst same
      obtain ⟨fresh, room⟩ := not_or.mp passed
      exact .inr ⟨template, expanded,
        entered?_eq_some_iff.mpr ⟨refers, fresh, Nat.not_le.mp room, registered⟩, returned, rfl⟩

/-- What is in a share comes from a generated list, or is a submenu that comes from a reference, or
has no menu attached and is not excluded. -/
theorem cases_of_mem_share {origin kept : Entry Menu} {share : List (Entry Menu)}
    (shared : registry.share? context chain origin = some share) (member : kept ∈ share) :
    (∃ generator, origin.kind = .generated generator) ∨
      (∃ name, origin.target? = some name) ∧ kept.request? = none ∨
      kept.child? = none ∧ ¬kept.Excluded registry.exclusions := by
  cases kind : origin.kind with
  | generated generator => exact .inl ⟨generator, rfl⟩
  | submenu name former =>
    simp only [share?, kind] at shared
    obtain ⟨child, _, rfl⟩ := Option.map_eq_some_iff.mp shared
    split at member
    · exact absurd member List.not_mem_nil
    · cases List.mem_singleton.mp member
      exact .inr (.inl ⟨⟨name, by simp [Entry.target?, kind]⟩, rfl⟩)
  | separator =>
    simp only [share?, kind] at shared
    cases shared
    cases List.mem_singleton.mp member
    refine .inr (.inr ⟨by simp [Entry.child?, kind], ?_⟩)
    rw [← Entry.any_hasRequest_iff]
    simp [Entry.request?, kind]
  | command request =>
    simp only [share?, kind] at shared
    split at shared <;> cases shared
    · exact absurd member List.not_mem_nil
    · rename_i admitted
      cases List.mem_singleton.mp member
      refine .inr (.inr ⟨rfl, ?_⟩)
      rw [← Entry.any_hasRequest_iff]
      simp only [Bool.or_eq_true, not_or] at admitted
      exact admitted.1.1

/-- Every excluded command in an expanded tree comes from a generated list. -/
theorem ComesFrom.generated_of_excluded {source shown : Menu} {origin kept : Entry Menu}
    (comes : registry.ComesFrom context chain source shown origin kept)
    (excluded : kept.Excluded registry.exclusions) :
    ∃ generator, origin.kind = .generated generator := by
  induction comes with
  | top traced =>
    obtain ⟨_, share, shared, inShare⟩ := traced.mem_share
    rcases cases_of_mem_share shared inShare with generated | ⟨_, silent⟩ | ⟨_, admitted⟩
    · exact generated
    · obtain ⟨_, _, _, _, _, asks, _⟩ := excluded
      cases silent.symm.trans asks
    · exact absurd excluded admitted
  | within _ _ _ _ inductionHypothesis => exact inductionHypothesis excluded

/-- What is traced to a template is an entry of the menu that the template is expanded to. -/
theorem Traced.mem {source shown : Menu} {origin kept : Entry Menu}
    (traced : registry.Traced context chain source shown origin kept) : kept ∈ shown.entries := by
  obtain ⟨traces, _, entries, among⟩ := traced
  rw [entries]
  exact List.mem_map.mpr ⟨_, among, rfl⟩

/-- Commands that are left out of a tree are left out with every entry that comes from a template. -/
theorem ComesFrom.leavesOut {source shown exclusions : Menu} {origin kept : Entry Menu}
    (comes : registry.ComesFrom context chain source shown origin kept)
    (leavesOut : shown.LeavesOut exclusions) : kept.LeavesOut exclusions := by
  induction comes with
  | top traced => exact Menu.leavesOut_iff.mp leavesOut _ traced.mem
  | within traced _ attached _ inductionHypothesis =>
    exact inductionHypothesis ((Menu.leavesOut_iff.mp leavesOut _ traced.mem).2 _ attached)

/-- Commands that are left out of every generated list in a tree are left out of the tree.

Proof: by induction on where a menu lies in the tree. An entry on the way there comes from an entry
of the template. If that stands for a generated list, the commands are left out below it. If it is
a reference, then the menu below it is empty, or a template was entered, and what comes from there
in the tree below comes from there in the whole tree. -/
theorem not_escapes_of_generated {source inner shown : Menu} {levels : Nat} {expanded : Expanded}
    (returned : registry.expandWithin context levels chain source = some expanded)
    (same : expanded.menu = shown)
    (generated : ∀ origin kept generator,
      registry.ComesFrom context chain source shown origin kept →
        origin.kind = .generated generator → kept.LeavesOut registry.exclusions)
    (within : inner.Within shown) :
    ∀ entry ∈ inner.entries, ¬entry.Escapes registry.exclusions := by
  induction within generalizing chain source levels expanded with
  | self =>
    subst same
    intro kept member escapes
    obtain ⟨origin, _, traced⟩ := exists_traced returned member
    obtain ⟨generator, stands⟩ := (ComesFrom.top traced).generated_of_excluded escapes.1
    exact (generated origin kept generator (.top traced) stands).1 escapes
  | @through child outer kept member attached deeper inductionHypothesis =>
    subst same
    obtain ⟨origin, _, traced⟩ := exists_traced returned member
    obtain ⟨_, share, shared, inShare⟩ := traced.mem_share
    rcases cases_of_mem_share shared inShare with
      ⟨generator, stands⟩ | ⟨⟨name, refers⟩, _⟩ | ⟨bare, _⟩
    · exact (generated origin kept generator (.top traced) stands).2 child attached inner deeper
    · have opened := child?_of_mem_share refers shared inShare
      rw [attached] at opened
      rcases opened?_eq_some refers opened with rfl | ⟨template, nested, entered, opens, rfl⟩
      -- nothing lies in an empty menu but the menu itself
      · cases deeper with
        | self => exact fun _ absent => absurd absent List.not_mem_nil
        | through absent => exact absurd absent List.not_mem_nil
      · refine inductionHypothesis opens rfl ?_
        intro further below generator comes stands
        exact generated further below generator (.within traced entered attached comes) stands
    · cases bare.symm.trans attached

end Registry

/-- A command of the exclusion menu that is in an expanded tree, at any depth, comes from a generated
list; no command of a template is shown that is excluded. So the commands of the exclusion menu are
left out of a tree exactly if they are left out of all that is generated in it. -/
theorem exclusions_miss_only_generated (registry : Registry) (context : Context) (source : Menu)
    (expanded : Expanded) (returned : registry.expand? context source = some expanded) :
    (∀ origin kept, registry.ComesFrom context [] source expanded.menu origin kept →
      kept.Excluded registry.exclusions → ∃ generator, origin.kind = .generated generator) ∧
    (expanded.menu.LeavesOut registry.exclusions ↔
      ∀ origin kept generator, registry.ComesFrom context [] source expanded.menu origin kept →
        origin.kind = .generated generator → kept.LeavesOut registry.exclusions) := by
  refine ⟨fun origin kept comes => comes.generated_of_excluded, ?_, ?_⟩
  · exact fun leavesOut origin kept generator comes _ => comes.leavesOut leavesOut
  · exact fun generated inner within => Registry.not_escapes_of_generated returned rfl generated within

/-- A menubar that opens a file and lists recent ones, where opening this file is excluded. -/
def reopening : Registry where
  menubar := ⟨"", [.command "Open" (.ofMenu "file-open" "/a.lyx"), { kind := .generated .lastFiles }]⟩
  exclusions := Registry.exclusionMenu ["file-open /a.lyx"]

/-- Every command can run, and the files were opened. -/
def recently (files : List String) : Context where
  statusOf _ := .enabled
  lastFiles := files

/-- The menubar is expanded to the recent files alone. -/
theorem expand?_reopening :
    (∃ expanded, reopening.expand? (recently ["/a.lyx"]) reopening.menubar = some expanded ∧
      expanded.menu.entries = [.enabledCommand "1. a.lyx|1" (.ofMenu "file-open" "/a.lyx")]) ∧
    ∃ expanded, reopening.expand? (recently []) reopening.menubar = some expanded ∧
      expanded.menu.entries = [] :=
  ⟨⟨_, rfl, by decide +kernel⟩, ⟨_, rfl, rfl⟩⟩

/-- If the file is a recent one, the excluded command that is shown comes from the list of those. If
there are no recent files, the command is left out. -/
theorem excluded_command_is_listed :
    (∃ expanded origin kept,
      reopening.expand? (recently ["/a.lyx"]) reopening.menubar = some expanded ∧
        reopening.ComesFrom (recently ["/a.lyx"]) [] reopening.menubar expanded.menu origin kept ∧
        kept.Excluded reopening.exclusions ∧ ∃ generator, origin.kind = .generated generator) ∧
      ∃ expanded, reopening.expand? (recently []) reopening.menubar = some expanded ∧
        expanded.menu.LeavesOut reopening.exclusions := by
  obtain ⟨⟨expanded, returned, entries⟩, ⟨bare, bareReturned, empty⟩⟩ := expand?_reopening
  constructor
  · obtain ⟨origin, _, traced⟩ := Registry.exists_traced returned (entries ▸ List.mem_singleton_self _)
    refine ⟨expanded, origin, _, returned, .top traced, by decide, ?_⟩
    exact (exclusions_miss_only_generated _ _ _ _ returned).1 _ _ (.top traced) (by decide)
  · refine ⟨bare, bareReturned, (exclusions_miss_only_generated _ _ _ _ bareReturned).2.mpr ?_⟩
    intro origin kept generator comes stands
    have absent (kept : Entry Menu) : kept ∉ bare.menu.entries := by simp [empty]
    cases comes with
    | top traced => exact absurd traced.mem (absent _)
    | within traced => exact absurd traced.mem (absent _)

/-- The command of a recent file is shown, although it is excluded. -/
theorem recent_file_escapes_exclusion :
    ∃ expanded, reopening.expand? (recently ["/a.lyx"]) reopening.menubar = some expanded ∧
      ¬expanded.menu.LeavesOut reopening.exclusions := by
  obtain ⟨expanded, returned, entries⟩ := expand?_reopening.1
  refine ⟨expanded, returned, fun leavesOut => ?_⟩
  refine leavesOut.top _ (entries ▸ List.mem_singleton_self _) ⟨by decide, fun label same => ?_⟩
  have action := congrArg Entry.request? same
  simp [Entry.enabledCommand, Entry.placeholder, Entry.command, Entry.request?, Request.ofMenu,
    Request.noAction] at action

end Menus
