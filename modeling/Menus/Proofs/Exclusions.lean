import Menus.Proofs.Assembly

/-!
# Excluded commands

A registry can have an exclusion menu. While a template is expanded, a command that asks for what a
command of the exclusion menu asks for is passed over, before its status is looked at. This has the
same effect as taking these commands out of all templates beforehand and excluding nothing: the
menus are the same at every depth, with the separators left and the submenus enabled or dropped, and
so are the warnings. What generators put into a menu is not compared with the exclusion menu at all.
-/

namespace Menus

/-- The entry is a command that asks for what a command of the exclusion menu asks for. -/
def Entry.Excluded (exclusions : Menu) (entry : Entry Menu) : Prop :=
  ∃ excluded ∈ exclusions.entries, ∃ own request, excluded.request? = some own ∧
    entry.request? = some request ∧ own.Same request

/-- A menu has a request exactly if one of its commands asks for the same. -/
theorem Menu.hasRequest_iff (menu : Menu) (request : Request) :
    menu.hasRequest request = true ↔
      ∃ entry ∈ menu.entries, ∃ own, entry.request? = some own ∧ own.Same request := by
  rw [hasRequest, List.any_eq_true]
  constructor
  · rintro ⟨entry, member, asks⟩
    cases kind : entry.kind with
    | command own =>
      refine ⟨entry, member, own, ?_, ?_⟩
      · simp [Entry.request?, kind]
      · simpa [kind] using asks
    | submenu | separator | generated => simp [kind] at asks
  · rintro ⟨entry, member, own, runs, same⟩
    refine ⟨entry, member, ?_⟩
    cases kind : entry.kind with
    | command request =>
      rw [Entry.request?, kind, Option.some.injEq] at runs
      simpa [runs] using same
    | submenu | separator | generated => simp [Entry.request?, kind] at runs

/-- An entry is excluded exactly if the exclusion menu has the request of the entry. -/
theorem Entry.any_hasRequest_iff (exclusions : Menu) (entry : Entry Menu) :
    entry.request?.any exclusions.hasRequest = true ↔ entry.Excluded exclusions := by
  cases runs : entry.request? with
  | none => simp [Excluded, runs]
  | some request => simp [Excluded, runs, Menu.hasRequest_iff]

instance (exclusions : Menu) (entry : Entry Menu) : Decidable (entry.Excluded exclusions) :=
  decidable_of_iff _ (Entry.any_hasRequest_iff exclusions entry)

/-- The menu without the commands that are excluded. -/
def Menu.without (menu exclusions : Menu) : Menu :=
  { menu with entries := menu.entries.filter fun entry => ¬entry.Excluded exclusions }

namespace Registry

/-- The templates without the commands that are excluded, and an empty exclusion menu. -/
def cleared (registry : Registry) : Registry where
  menubar := registry.menubar.without registry.exclusions
  menus := registry.menus.map fun menu => menu.without registry.exclusions

variable (registry : Registry) (context : Context)

/-- The menu found under a name is the one found before, without the excluded commands. -/
theorem menu?_cleared (name : String) :
    registry.cleared.menu? name =
      (registry.menu? name).map fun menu => menu.without registry.exclusions := by
  rw [menu?, cleared, List.find?_map]
  rfl

/-- An excluded entry is a command whose request the exclusion menu has. -/
theorem kind_of_excluded {registry : Registry} {entry : Entry Menu}
    (excluded : entry.Excluded registry.exclusions) :
    ∃ request, entry.kind = .command request ∧ registry.exclusions.hasRequest request = true := by
  have asks := (Entry.any_hasRequest_iff _ _).mpr excluded
  cases kind : entry.kind with
  | command request => exact ⟨request, rfl, by simpa [Entry.request?, kind] using asks⟩
  | submenu | separator | generated => simp [Entry.request?, kind] at asks

/-- An excluded entry contributes nothing. -/
theorem place_of_excluded {entry : Entry Menu} (excluded : entry.Excluded registry.exclusions)
    (menu : Menu) : registry.place context menu entry = menu := by
  obtain ⟨request, runs, barred⟩ := kind_of_excluded excluded
  simp [place, runs, barred]

/-- An entry that is not excluded contributes what it does where nothing is excluded. -/
theorem place_cleared {entry : Entry Menu} (admitted : ¬entry.Excluded registry.exclusions)
    (menu : Menu) :
    registry.place context menu entry = registry.cleared.place context menu entry := by
  rw [← Entry.any_hasRequest_iff] at admitted
  have free (request : Request) : registry.cleared.exclusions.hasRequest request = false := rfl
  cases kind : entry.kind with
  | command request =>
    have barred : registry.exclusions.hasRequest request = false := by
      simpa [Entry.request?, kind] using admitted
    simp [place, kind, barred, free]
  | submenu | separator | generated => simp [place, kind]

/-- A menu is put together as it is where nothing is excluded from the entries that are not. -/
theorem assemble_cleared (name : String) (entries : List (Entry Menu)) :
    registry.assemble context name entries =
      registry.cleared.assemble context name
        (entries.filter fun entry => ¬entry.Excluded registry.exclusions) := by
  rw [assemble, assemble, List.foldl_filter]
  congr 2
  funext menu entry
  by_cases excluded : entry.Excluded registry.exclusions
  · simp [excluded, place_of_excluded]
  · simp [excluded, place_cleared]

/-- Attaching menus gives the same for all entries, if the templates that are entered are expanded
to the same with and without the excluded commands. -/
theorem attach?_cleared {openMenu openCleared : Menu → Option Expanded}
    (same : ∀ template, openMenu template = openCleared (template.without registry.exclusions))
    (chain : List String) (entry : Entry Menu) :
    registry.attach? openMenu chain entry = registry.cleared.attach? openCleared chain entry := by
  rw [attach?, attach?]
  split
  · rfl
  · rename_i name _
    rw [menu?_cleared]
    cases registry.menu? name with
    | none => rfl
    | some template => simp only [Option.map_some, same template]

/-- Attaching a menu keeps the request of an entry. -/
theorem request?_of_attach? {registry : Registry} {openMenu : Menu → Option Expanded}
    {chain : List String} {entry : Entry Menu} {attached : Entry Menu × List Warning}
    (result : registry.attach? openMenu chain entry = some attached) :
    attached.1.request? = entry.request? := by
  have kept (child : Menu) : (entry.withChild child).request? = entry.request? := by
    cases kind : entry.kind <;> simp [Entry.withChild, Entry.request?, kind]
  cases refers : entry.target? with
  | none =>
    rw [attach?_of_no_target refers] at result
    cases result
    rfl
  | some name =>
    cases entered : registry.entered? chain entry with
    | none =>
      obtain ⟨warning, emptied⟩ := emptied_of_not_entered refers entered
      rw [emptied] at result
      cases result
      exact kept _
    | some template =>
      rw [attach?_of_entered entered, Option.map_eq_some_iff] at result
      obtain ⟨expanded, _, rfl⟩ := result
      exact kept _

/-- An excluded entry refers to no menu, so it stays as it is. -/
theorem attach?_of_excluded {entry : Entry Menu} (excluded : entry.Excluded registry.exclusions)
    (openMenu : Menu → Option Expanded) (chain : List String) :
    registry.attach? openMenu chain entry = some (entry, []) := by
  obtain ⟨request, runs, _⟩ := kind_of_excluded excluded
  exact attach?_of_no_target (by simp [Entry.target?, runs])

/-- Attaching menus and leaving out excluded entries can be done in either order. -/
theorem mapM_attach?_without (openMenu : Menu → Option Expanded) (chain : List String)
    (entries : List (Entry Menu)) :
    (entries.filter fun entry => ¬entry.Excluded registry.exclusions).mapM
        (registry.attach? openMenu chain) =
      (entries.mapM (registry.attach? openMenu chain)).map
        (List.filter fun attached => ¬attached.1.Excluded registry.exclusions) := by
  refine mapM_filter ?_ ?_
  · intro entry _ attached result
    have same : attached.1.Excluded registry.exclusions ↔ entry.Excluded registry.exclusions := by
      rw [Entry.Excluded, Entry.Excluded, request?_of_attach? result]
    exact decide_eq_decide.mpr (not_congr same)
  · intro entry _ excluded
    rw [registry.attach?_of_excluded (by simpa using excluded)]
    rfl

/-- Leaving out excluded entries leaves out no warning: nothing has been attached to them. -/
theorem flatMap_warnings_without {openMenu : Menu → Option Expanded} {chain : List String}
    {entries : List (Entry Menu)} {results : List (Entry Menu × List Warning)}
    (mapped : entries.mapM (registry.attach? openMenu chain) = some results) :
    (results.filter fun attached => ¬attached.1.Excluded registry.exclusions).flatMap Prod.snd =
      results.flatMap Prod.snd := by
  have silent : ∀ attached ∈ results, attached.1.Excluded registry.exclusions →
      attached.2 = [] := by
    intro attached member excluded
    obtain ⟨entry, _, result⟩ := exists_of_mem_mapM mapped member
    rw [Entry.Excluded, request?_of_attach? result] at excluded
    rw [registry.attach?_of_excluded excluded] at result
    cases result
    rfl
  clear mapped
  induction results with
  | nil => rfl
  | cons attached rest inductionHypothesis =>
    rw [List.forall_mem_cons] at silent
    by_cases excluded : attached.1.Excluded registry.exclusions
    · rw [List.filter_cons_of_neg (by simpa using excluded), inductionHypothesis silent.2,
        List.flatMap_cons, silent.1 excluded]
      rfl
    · rw [List.filter_cons_of_pos (by simpa using excluded), List.flatMap_cons, List.flatMap_cons,
        inductionHypothesis silent.2]

/-- Inside any chain, passing over excluded commands gives what the templates without them give.

Proof: by induction on the levels. The submenus get the same menus attached, by the induction
hypothesis, and excluded commands get none; so of the entries with attached menus just the excluded
ones are missing, which contribute nothing and warn of nothing. -/
theorem expandWithin_cleared (levels : Nat) (chain : List String) (source : Menu) :
    registry.expandWithin context levels chain source =
      registry.cleared.expandWithin context levels chain
        (source.without registry.exclusions) := by
  induction levels generalizing chain source with
  | zero => rfl
  | succ levels inductionHypothesis =>
    have opens := funext (registry.attach?_cleared
      (inductionHypothesis (chainInside chain source.name)) (chainInside chain source.name))
    rw [expandWithin, expandWithin]
    simp only [Menus.Menu.without]
    rw [← opens, mapM_attach?_without, Option.map_map]
    cases mapped : source.entries.mapM (registry.attach?
        (registry.expandWithin context levels (chainInside chain source.name))
        (chainInside chain source.name)) with
    | none => rfl
    | some results =>
      have assembled := registry.assemble_cleared context source.name (results.map Prod.fst)
      rw [List.filter_map] at assembled
      simp only [Option.map_some, Function.comp_apply]
      rw [assembled, registry.flatMap_warnings_without mapped]
      rfl

end Registry

/-- Excluding commands while a template is expanded is the same as expanding it without them, in a
registry whose templates are all without them and that excludes nothing: the expansion comes to an
end for the one exactly if it does for the other, and then gives the same menu and the same
warnings. -/
theorem excluded_commands_as_if_removed (registry : Registry) (context : Context) (source : Menu) :
    registry.expand? context source =
      registry.cleared.expand? context (source.without registry.exclusions) :=
  registry.expandWithin_cleared context _ _ _

/-- Excluding the only command of an optional submenu takes the submenu and the separator behind it
out of the menu. An inset that asks for the same is generated, so it stays. -/
example :
    (Registry.expand?
        { menus := [⟨"tools", [.command "Note" (.ofMenu "flex-insert" "Note")]⟩]
          exclusions := Registry.exclusionMenu ["flex-insert Note"] }
        { statusOf := fun _ => .enabled, document := some { insetLayouts := [⟨"Note", "custom"⟩] } }
        ⟨"", [{ Entry.submenu "Tools" "tools" with optional := true }, .separator,
          { kind := .generated (.insets "custom") }]⟩).map
      (fun expanded => expanded.menu.entries.map Entry.label) = some ["Note"] := rfl

end Menus
