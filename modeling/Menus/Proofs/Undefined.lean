import Mathlib.Data.Set.Basic
import Menus.Proofs.Nesting
import Menus.Registry.Check

/-!
# References to menus that are not registered

Two parts of the library find submenus that refer to nothing. A check looks at the entries of each
template, without a context and without following references. An expansion follows them and warns of
each that leads nowhere, but its chain hides some: a reference that is stopped is not looked up.

Both find the same names. What an expansion warns of, at any depth, is written in a template that the
check looks at. And nothing the check finds is hidden from every expansion: the chain of a template's
own expansion holds no name but the template's, and a template with a name is registered.
-/

namespace Menus

/-- The entry refers to a menu that is not registered. -/
def Registry.Dangles (registry : Registry) (entry : Entry Menu) (name : String) : Prop :=
  entry.target? = some name ∧ registry.menu? name = none

namespace Registry

/-- The names of which expansions of the menubar and the registered menus warn that nothing is
defined. -/
def undefinedNames (registry : Registry) (context : Context) : Set String :=
  {name | ∃ source ∈ registry.sources, ∃ expanded,
    registry.expand? context source = some expanded ∧ .undefined name ∈ expanded.warnings}

/-- The names to which the check finds no menu. -/
def unresolvedNames (registry : Registry) : Set String :=
  {name | ∃ menu label, .unresolvedSubmenu menu label name ∈ registry.check}

variable {registry : Registry} {context : Context}

/-- An entry has an issue if its reference leads nowhere. -/
theorem unresolved?_eq_some_iff {menu : String} {entry : Entry Menu} {issue : TemplateIssue} :
    registry.unresolved? menu entry = some issue ↔
      ∃ name, registry.Dangles entry name ∧ .unresolvedSubmenu menu entry.text name = issue := by
  cases refers : entry.target? with
  | none => simp [unresolved?, Dangles, refers]
  | some target =>
    cases found : registry.menu? target with
    | none => simp [unresolved?, Dangles, refers, hasMenu_eq_isSome, found]
    | some menu => simp [unresolved?, Dangles, refers, hasMenu_eq_isSome, found]

/-- The check finds the references to menus that are not registered. -/
theorem mem_unresolvedNames_iff {name : String} :
    name ∈ registry.unresolvedNames ↔
      ∃ source ∈ registry.sources, ∃ entry ∈ source.entries, registry.Dangles entry name := by
  constructor
  · rintro ⟨menu, label, reported⟩
    obtain ⟨source, among, found⟩ := List.mem_flatMap.mp reported
    rcases List.mem_append.mp found with reference | hint
    · obtain ⟨entry, member, issue⟩ := List.mem_filterMap.mp reference
      obtain ⟨target, dangles, same⟩ := unresolved?_eq_some_iff.mp issue
      cases same
      exact ⟨source, among, entry, member, dangles⟩
    · simp at hint
  · rintro ⟨source, among, entry, member, dangles⟩
    refine ⟨source.name, entry.text, List.mem_flatMap.mpr ⟨source, among, ?_⟩⟩
    apply List.mem_append_left
    exact List.mem_filterMap.mpr ⟨entry, member, unresolved?_eq_some_iff.mpr ⟨name, dangles, rfl⟩⟩

/-- A warning of something undefined comes from a reference to it, or from opening a menu. -/
theorem undefined_of_attach? {openMenu : Menu → Option Expanded} {chain : List String}
    {entry : Entry Menu} {attached : Entry Menu × List Warning} {name : String}
    (result : registry.attach? openMenu chain entry = some attached)
    (warned : .undefined name ∈ attached.2) :
    registry.Dangles entry name ∨ ∃ template expanded,
      registry.entered? chain entry = some template ∧ openMenu template = some expanded ∧
        .undefined name ∈ expanded.warnings := by
  cases entered : registry.entered? chain entry with
  | some template =>
    rw [attach?_of_entered entered, Option.map_eq_some_iff] at result
    obtain ⟨expanded, opens, rfl⟩ := result
    exact .inr ⟨template, expanded, rfl, opens, warned⟩
  | none =>
    cases refers : entry.target? with
    | none =>
      rw [attach?_of_no_target refers] at result
      cases result
      exact absurd warned List.not_mem_nil
    | some target =>
      by_cases stopped : stops chain target = true
      · simp only [attach?, refers, if_pos stopped, Option.some.injEq] at result
        subst result
        simp at warned
      · have missing : registry.menu? target = none := by
          simpa [entered?, refers, stopped] using entered
        simp only [attach?, refers, if_neg stopped, missing, Option.some.injEq] at result
        subst result
        obtain rfl : name = target := by simpa using warned
        exact .inl ⟨refers, missing⟩

/-- The warnings of something undefined in an expansion are those of its entries. -/
theorem undefined_mem_warnings_iff {levels : Nat} {chain : List String} {source : Menu}
    {expanded : Expanded} {name : String}
    (returned : registry.expandWithin context (levels + 1) chain source = some expanded) :
    .undefined name ∈ expanded.warnings ↔ ∃ entry ∈ source.entries, ∃ attached,
      registry.attach? (registry.expandWithin context levels (chainInside chain source.name))
          (chainInside chain source.name) entry = some attached ∧
        .undefined name ∈ attached.2 := by
  rw [expandWithin, Option.map_eq_some_iff] at returned
  obtain ⟨results, mapped, rfl⟩ := returned
  simp only [List.mem_append, List.mem_flatMap, List.mem_map, reduceCtorEq, and_false, exists_false,
    or_false]
  constructor
  · rintro ⟨attached, member, warned⟩
    obtain ⟨entry, among, result⟩ := exists_of_mem_mapM mapped member
    exact ⟨entry, among, attached, result, warned⟩
  · rintro ⟨entry, among, attached, result, warned⟩
    obtain ⟨other, member, same⟩ := exists_result_of_mapM mapped among
    cases result.symm.trans same
    exact ⟨attached, member, warned⟩

/-- What an expansion warns of is referred to in its template or in a registered one.

Proof: by induction on the levels. A warning that no reference of the template explains comes from a
template that was entered, and that one is registered. -/
theorem dangles_of_undefined {levels : Nat} {chain : List String} {source : Menu}
    {expanded : Expanded} {name : String}
    (returned : registry.expandWithin context levels chain source = some expanded)
    (warned : .undefined name ∈ expanded.warnings) :
    ∃ template, (template = source ∨ template ∈ registry.menus) ∧
      ∃ entry ∈ template.entries, registry.Dangles entry name := by
  induction levels generalizing chain source expanded with
  | zero => simp [expandWithin] at returned
  | succ levels inductionHypothesis =>
    obtain ⟨entry, member, attached, result, fromEntry⟩ :=
      (undefined_mem_warnings_iff returned).mp warned
    rcases undefined_of_attach? result fromEntry with dangles | ⟨template, inner, entered, opens, below⟩
    · exact ⟨source, .inl rfl, entry, member, dangles⟩
    · have registered : template ∈ registry.menus :=
        List.mem_of_find?_eq_some (entered?_eq_some_iff.mp entered).2.2.2
      obtain ⟨deeper, known, refers⟩ := inductionHypothesis opens below
      refine ⟨deeper, .inr ?_, refers⟩
      rcases known with rfl | known
      · exact registered
      · exact known

/-- An expansion warns of a reference that leads nowhere, unless the chain stops it. -/
theorem undefined_of_dangles {levels : Nat} {chain : List String} {source : Menu}
    {expanded : Expanded} {entry : Entry Menu} {name : String}
    (returned : registry.expandWithin context levels chain source = some expanded)
    (member : entry ∈ source.entries) (dangles : registry.Dangles entry name)
    (passed : stops (chainInside chain source.name) name = false) :
    .undefined name ∈ expanded.warnings := by
  obtain ⟨refers, missing⟩ := dangles
  cases levels with
  | zero => simp [expandWithin] at returned
  | succ levels =>
    apply (undefined_mem_warnings_iff returned).mpr
    refine ⟨entry, member, (entry.withChild (.empty name), [.undefined name]), ?_, by simp⟩
    simp [attach?, refers, passed, missing]

/-- The chain of a template's own expansion stops no reference that leads nowhere, if the template
has no name or is registered under it. -/
theorem not_stops_of_dangles {source : Menu} {entry : Entry Menu} {name : String}
    (known : source.name = "" ∨ source ∈ registry.menus) (dangles : registry.Dangles entry name) :
    stops (chainInside [] source.name) name = false := by
  by_cases unnamed : source.name = ""
  · simp [stops, chainInside, unnamed, chainLimit]
  · have registered := known.resolve_left unnamed
    -- the name on the chain is registered, the one referred to is not
    have other : name ≠ source.name := by
      rintro rfl
      have absent := List.find?_eq_none.mp dangles.2 source registered
      simp at absent
    simp [stops, chainInside, unnamed, other, chainLimit]

/-- What expansions warn of is found by the check. -/
theorem undefinedNames_subset (registry : Registry) (context : Context) :
    registry.undefinedNames context ⊆ registry.unresolvedNames := by
  rintro name ⟨source, among, expanded, returned, warned⟩
  obtain ⟨template, known, entry, member, dangles⟩ := dangles_of_undefined returned warned
  refine mem_unresolvedNames_iff.mpr ⟨template, ?_, entry, member, dangles⟩
  rcases known with rfl | known
  · exact among
  · exact List.mem_cons_of_mem _ known

/-- What the check finds is not hidden from the expansion of the template it is found in. -/
theorem unresolvedNames_subset (unnamed : registry.menubar.name = "")
    (returns : ∀ source ∈ registry.sources, ∃ expanded,
      registry.expand? context source = some expanded) :
    registry.unresolvedNames ⊆ registry.undefinedNames context := by
  intro name found
  obtain ⟨source, among, entry, member, dangles⟩ := mem_unresolvedNames_iff.mp found
  obtain ⟨expanded, returned⟩ := returns source among
  have known : source.name = "" ∨ source ∈ registry.menus := by
    rcases List.mem_cons.mp among with rfl | registered
    · exact .inl unnamed
    · exact .inr registered
  exact ⟨source, among, expanded, returned,
    undefined_of_dangles returned member dangles (not_stops_of_dangles known dangles)⟩

/-- In a registry whose menubar has no name, the check finds no menu to exactly those names of which
the expansions of the menubar and the registered menus warn, in any context in which all of them
return. If the check finds a menu to every name, no expansion in any context warns of a name, however
deep it stands.

No update gives a menubar a name. One that had a name would be on the chain of its own expansion
without being registered. -/
theorem check_finds_undefined_names (registry : Registry) (unnamed : registry.menubar.name = "") :
    (∀ context,
      (∀ source ∈ registry.sources, ∃ expanded,
        registry.expand? context source = some expanded) →
      registry.undefinedNames context = registry.unresolvedNames) ∧
    ((∀ menu label name, .unresolvedSubmenu menu label name ∉ registry.check) →
      ∀ context, ∀ source ∈ registry.sources, ∀ expanded,
        registry.expand? context source = some expanded →
        ∀ name, .undefined name ∉ expanded.warnings) := by
  constructor
  · intro context returns
    exact (registry.undefinedNames_subset context).antisymm (unresolvedNames_subset unnamed returns)
  · intro resolved context source among expanded returned name warned
    obtain ⟨menu, label, reported⟩ :=
      registry.undefinedNames_subset context ⟨source, among, expanded, returned, warned⟩
    exact resolved menu label name reported

/-- A menu that refers to itself, below the menubar, and the entries behind this reference. -/
def looped (entries : List (Entry Menu)) : Registry where
  menubar := ⟨"", [.submenu "File" "file"]⟩
  menus := [⟨"file", .submenu "Again" "file" :: entries⟩]

/-- Behind a reference that leads back, one that leads nowhere is found in both ways. Without it
nothing is. -/
theorem check_finds_undefined_name_in_loop :
    "lost" ∈ (looped [.submenu "Lost" "lost"]).unresolvedNames ∧
      (∀ context, (looped [.submenu "Lost" "lost"]).undefinedNames context =
        (looped [.submenu "Lost" "lost"]).unresolvedNames) ∧
      ∀ context, ∃ expanded,
        (looped []).expand? context (looped []).menubar = some expanded ∧
          ∀ name, .undefined name ∉ expanded.warnings := by
  refine ⟨⟨"file", "Lost", by decide⟩, fun context => ?_, fun context => ⟨_, rfl, ?_⟩⟩
  · apply (check_finds_undefined_names _ rfl).1
    intro source among
    rcases List.mem_cons.mp among with rfl | among
    · exact ⟨_, rfl⟩
    · cases List.mem_singleton.mp among
      exact ⟨_, rfl⟩
  · refine (check_finds_undefined_names (looped []) rfl).2 ?_ context _ List.mem_cons_self _ rfl
    have silent : (looped []).check = [] := by decide
    simp [silent]

end Registry

end Menus
