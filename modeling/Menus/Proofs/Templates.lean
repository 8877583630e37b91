import Menus.Cache.Record

/-!
# What is read is made of templates

A status and an attached menu are what an expansion adds to an entry, and a record of a load keeps
neither. Reading definitions never sets them: every entry of a registry that was read from files is a
template, so a record of the registry keeps all of it.
-/

namespace Menus

/-- An entry as a definition can state it. -/
structure Entry.IsTemplate (entry : Entry Menu) : Prop where
  unasked : entry.status = {}
  detached : entry.child? = none
  optional : entry.optional → entry.isCommand ∨ entry.isSubmenu
  unlabelled : entry.isSeparator ∨ entry.isGenerated → entry.label = ""

/-- Nothing of a template is lost when it is kept. -/
theorem Entry.IsTemplate.asTemplate_eq {entry : Entry Menu} (template : entry.IsTemplate) :
    entry.asTemplate = entry := by
  obtain ⟨kind, label, optional, status⟩ := entry
  obtain ⟨unasked, detached, _, _⟩ := template
  cases unasked
  cases kind with
  | submenu name child =>
    cases detached
    rfl
  | command | separator | generated => rfl

/-- All entries of the menu are templates. -/
def Menu.IsTemplate (menu : Menu) : Prop :=
  ∀ entry ∈ menu.entries, entry.IsTemplate

theorem Menu.IsTemplate.asTemplate_eq {menu : Menu} (template : menu.IsTemplate) :
    menu.asTemplate = menu := by
  have same : menu.entries.map Entry.asTemplate = menu.entries :=
    (List.map_congr_left fun entry member => (template entry member).asTemplate_eq).trans
      (List.map_id _)
  cases menu
  exact congrArg _ same

/-- All menus of the registry hold templates. -/
structure Registry.IsTemplates (registry : Registry) : Prop where
  menubar : registry.menubar.IsTemplate
  menus : ∀ menu ∈ registry.menus, menu.IsTemplate
  exclusions : registry.exclusions.IsTemplate

/-- Nothing of a registry of templates is lost when it is kept. -/
theorem Registry.IsTemplates.asTemplates_eq {registry : Registry} (templates : registry.IsTemplates) :
    registry.asTemplates = registry := by
  have menus : registry.menus.map Menu.asTemplate = registry.menus :=
    (List.map_congr_left fun menu member => (templates.menus menu member).asTemplate_eq).trans
      (List.map_id _)
  rw [asTemplates, menus, templates.menubar.asTemplate_eq, templates.exclusions.asTemplate_eq]

namespace Keyword

/-- A keyword that takes no arguments adds a template. -/
theorem isTemplate_of_plain {keyword : Keyword} {entry : Entry Menu}
    (line : keyword.line = .plain entry) : entry.IsTemplate := by
  cases keyword with
  | separator | generated =>
    cases line
    constructor <;> simp [Entry.separator, Entry.child?]
  | _ => cases line

/-- A keyword that takes two arguments adds a template. -/
theorem isTemplate_of_pair {keyword : Keyword} {second : String}
    {build : String → String → Entry Menu} (line : keyword.line = .pair second build)
    (label argument : String) : (build label argument).IsTemplate := by
  cases keyword with
  | item optional | submenu optional =>
    cases line
    constructor <;>
      simp [Entry.command, Entry.submenu, Entry.child?, Entry.isCommand, Entry.isSubmenu,
        Entry.request?, Entry.target?, Entry.isSeparator, Entry.isGenerated]
  | _ => cases line

end Keyword

/-- The entries of a body are templates. -/
theorem Body.isTemplate_read (file : String) (tokens : List Token) :
    ∀ entry ∈ (Body.read file tokens).entries, entry.IsTemplate := by
  fun_induction Body.read file tokens with
  | case1 | case3 => exact fun _ member => absurd member List.not_mem_nil
  | case4 _ _ _ _ _ line inductionHypothesis =>
    exact List.forall_mem_cons.mpr ⟨Keyword.isTemplate_of_plain line, inductionHypothesis⟩
  | case8 _ _ _ _ _ line _ _ _ _ _ inductionHypothesis =>
    exact List.forall_mem_cons.mpr ⟨Keyword.isTemplate_of_pair line _ _, inductionHypothesis⟩
  | case2 | case5 | case6 | case7 | case9 | case10 => assumption

/-- The contribution gives templates. -/
def Contribution.IsTemplate (contribution : Contribution) : Prop :=
  ∀ entry ∈ contribution.entries, entry.IsTemplate

/-- What the statement contributes, if anything, is made of templates. -/
def Statement.IsTemplate : Statement → Prop
  | .contribute contribution => contribution.IsTemplate
  | _ => True

namespace Statement

/-- Problems contribute nothing. -/
theorem isTemplate_problems (problems : List Diagnostic) :
    ∀ statement ∈ problems.map Statement.problem, statement.IsTemplate := by
  intro statement member
  obtain ⟨problem, _, rfl⟩ := List.mem_map.mp member
  trivial

theorem isTemplate_ofBody (menu : Option String) (file : String) (tokens : List Token) :
    ∀ statement ∈ ofBody menu (Body.read file tokens), statement.IsTemplate :=
  List.forall_mem_cons.mpr ⟨Body.isTemplate_read file tokens, isTemplate_problems _⟩

end Statement

namespace Passage

/-- A block of menus contributes templates. -/
theorem isTemplate_readMenuset (file : String) (tokens : List Token) :
    ∀ statement ∈ (readMenuset file tokens).statements, statement.IsTemplate := by
  fun_induction readMenuset file tokens with
  | case1 => exact Statement.isTemplate_problems [_]
  | case2 => exact fun _ member => absurd member List.not_mem_nil
  | case3 | case5 =>
    exact List.forall_mem_append.mpr ⟨Statement.isTemplate_ofBody _ _ _, by assumption⟩
  | case4 | case6 | case7 =>
    exact List.forall_mem_append.mpr ⟨Statement.isTemplate_problems [_], by assumption⟩

/-- A toolbar contributes nothing. -/
theorem isTemplate_skipToolbar (file : String) (tokens : List Token) :
    ∀ statement ∈ (skipToolbar file tokens).statements, statement.IsTemplate := by
  fun_induction skipToolbar file tokens with
  | case1 => exact Statement.isTemplate_problems [_]
  | case2 => exact fun _ member => absurd member List.not_mem_nil
  | case3 => assumption

/-- A block of toolbars contributes nothing. -/
theorem isTemplate_skipToolbarset (file : String) (tokens : List Token) :
    ∀ statement ∈ (skipToolbarset file tokens).statements, statement.IsTemplate := by
  fun_induction skipToolbarset file tokens with
  | case1 => exact Statement.isTemplate_problems [_]
  | case2 => exact fun _ member => absurd member List.not_mem_nil
  | case3 =>
    exact List.forall_mem_append.mpr ⟨isTemplate_skipToolbar _ _, by assumption⟩
  | case4 => assumption

end Passage

/-- A definition file contributes templates. -/
theorem Statement.isTemplate_readFile (file : String) (tokens : List Token) :
    ∀ statement ∈ readFile file tokens, statement.IsTemplate := by
  fun_induction readFile file tokens with
  | case1 => exact fun _ member => absurd member List.not_mem_nil
  | case2 =>
    exact List.forall_mem_append.mpr ⟨Passage.isTemplate_readMenuset _ _, by assumption⟩
  | case3 =>
    exact List.forall_mem_append.mpr ⟨Passage.isTemplate_skipToolbarset _ _, by assumption⟩
  | case4 => exact isTemplate_problems [_]
  | case5 | case6 | case7 => exact List.forall_mem_cons.mpr ⟨trivial, by assumption⟩

/-- The contributions of statements that contribute templates are made of templates. -/
theorem Statement.isTemplate_contributions {statements : List Statement}
    (templates : ∀ statement ∈ statements, statement.IsTemplate) :
    ∀ contribution ∈ contributions statements, contribution.IsTemplate := by
  intro contribution given
  obtain ⟨statement, member, contributes⟩ := List.mem_filterMap.mp given
  have template := templates statement member
  cases statement with
  | contribute own =>
    cases contributes
    exact template
  | problem | inclusion => cases contributes

/-- Giving templates to a menu of templates leaves a menu of templates. -/
theorem Menu.IsTemplate.append {menu : Menu} (template : menu.IsTemplate)
    {contribution : Contribution} (given : contribution.IsTemplate) :
    (menu.append contribution.entries).IsTemplate :=
  List.forall_mem_append.mpr ⟨template, given⟩

/-- Contributing templates leaves a registry of templates. -/
theorem Registry.IsTemplates.contribute {registry : Registry} (templates : registry.IsTemplates)
    {contribution : Contribution} (given : contribution.IsTemplate) :
    (registry.contribute contribution).IsTemplates := by
  have extended (name : String) (menus : List Menu) (all : ∀ menu ∈ menus, menu.IsTemplate) :
      ∀ menu ∈ extendMenus name contribution.entries menus, menu.IsTemplate := by
    induction menus with
    | nil => exact List.forall_mem_singleton.mpr given
    | cons menu rest inductionHypothesis =>
      rw [List.forall_mem_cons] at all
      rw [extendMenus]
      split
      · exact List.forall_mem_cons.mpr ⟨all.1.append given, all.2⟩
      · exact List.forall_mem_cons.mpr ⟨all.1, inductionHypothesis all.2⟩
  rw [Registry.contribute]
  split
  · exact { templates with menubar := templates.menubar.append given }
  · exact { templates with menus := extended _ _ templates.menus }

/-- Contributing templates one after another leaves a registry of templates. -/
theorem Registry.IsTemplates.contributeAll {registry : Registry} (templates : registry.IsTemplates)
    {contributions : List Contribution}
    (given : ∀ contribution ∈ contributions, contribution.IsTemplate) :
    (registry.contributeAll contributions).IsTemplates := by
  induction contributions generalizing registry with
  | nil => exact templates
  | cons contribution rest inductionHypothesis =>
    rw [List.forall_mem_cons] at given
    exact inductionHypothesis (templates.contribute given.1) given.2

/-- A registry without entries holds templates. -/
theorem Registry.isTemplates_empty : ({} : Registry).IsTemplates where
  menubar := fun _ member => absurd member List.not_mem_nil
  menus := fun _ member => absurd member List.not_mem_nil
  exclusions := fun _ member => absurd member List.not_mem_nil

/-- An exclusion menu of commands holds templates. -/
theorem Registry.isTemplate_exclusionMenu (commands : List String) :
    (exclusionMenu commands).IsTemplate := by
  intro entry member
  obtain ⟨command, _, rfl⟩ := List.mem_map.mp member
  constructor <;> simp [Entry.command, Entry.child?, Entry.isSeparator, Entry.isGenerated]

end Menus
