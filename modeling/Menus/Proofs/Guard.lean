import Menus.Proofs.Contributions
import Menus.Proofs.Nesting

/-!
# The guard against submenus that lead back

A reference to a menu that is being expanded, or beyond the limit of the chain, is to open an empty
menu, so that every expansion comes to an end. For menus with a name this holds: each is being
expanded at most once at a time, and no more than `chainLimit` of them are nested.

A definition may also declare a menu of the empty name. It stands on no chain, so the guard does not
see it. It can be entered from within itself, beside `chainLimit` others, and without end if it
refers to itself. This is exactly where the guard fails: it covers all registered menus if and only
if no descent enters the menu of the empty name while that menu is being expanded or beside
`chainLimit` others.
-/

namespace Menus

namespace Registry

variable {registry : Registry}

/-- Where an expansion starts, with the registered menus that are being expanded from the start: a
named menu, or none when it is the menubar. -/
inductive Starts (registry : Registry) : Menu → List Menu → Prop where
  | menubar : Starts registry registry.menubar []
  | named {menu : Menu} (member : menu ∈ registry.menus) : Starts registry menu [menu]

/-- What the guard is to ensure in one menu of an expansion, for the `names` it watches over. The
chain is the one the expansion has there. -/
structure GuardedAt (registry : Registry) (chain : List String) (current : Menu)
    (names : List String) : Prop where
  /-- No menu is being expanded twice. -/
  once : names.Nodup
  /-- No more menus are nested than the limit of the chain. -/
  bounded : names.length ≤ chainLimit
  /-- A reference that leads back or too deep is opened as an empty menu. -/
  closed : ∀ entry ∈ current.entries, ∀ name, entry.target? = some name →
    name ∈ names ∨ chainLimit ≤ names.length → registry.Emptied chain entry name

/-- The guard holds along every descent of an expansion, for the names that `names` takes from the
templates entered. -/
def Guards (registry : Registry) (source : Menu) (names : List Menu → List String) : Prop :=
  ∀ path, registry.Descent (chainNames [source]) source path →
    registry.GuardedAt (chainNames (source :: path)) (innermost source path) (names path)

/-- All that is promised of expanding `source`: every expansion returns, and the guard watches over
all registered menus that are being expanded, `opened` from the start and the others entered. -/
structure Guarded (registry : Registry) (source : Menu) (opened : List Menu) : Prop where
  /-- Every expansion returns. -/
  returns : ∀ context, ∃ expanded, registry.expand? context source = some expanded
  /-- The guard misses no menu. -/
  guards : registry.Guards source fun path => (opened ++ path).map Menu.name

/-- The menu of the empty name is not among the menus, or it is there once and beside fewer than
`chainLimit` others. -/
def SparesUnnamed (menus : List Menu) : Prop :=
  (menus.map Menu.name).count "" = 0 ∨
    (menus.map Menu.name).count "" = 1 ∧ (chainNames menus).length < chainLimit

/-- Names are distinct when the names that are not empty are, and the empty one occurs at most
once. -/
theorem nodup_iff_of_named (names : List String) :
    names.Nodup ↔ (names.filter fun name => !name.isEmpty).Nodup ∧ names.count "" ≤ 1 := by
  constructor
  · intro distinct
    exact ⟨distinct.filter _, List.nodup_iff_count.mp distinct ""⟩
  · rintro ⟨distinct, atMostOnce⟩
    rw [List.nodup_iff_count]
    intro name
    by_cases unnamed : name = ""
    · rw [unnamed]
      exact atMostOnce
    · rw [← List.count_filter (p := fun name => !name.isEmpty) (by simpa using unnamed)]
      exact List.nodup_iff_count.mp distinct name

/-- Menus are those that stand on a chain and those of the empty name. -/
theorem length_eq_add_chainNames (menus : List Menu) :
    menus.length = (menus.map Menu.name).count "" + (chainNames menus).length := by
  induction menus with
  | nil => rfl
  | cons menu rest inductionHypothesis =>
    by_cases unnamed : menu.name = ""
    · simp [chainNames, unnamed] at inductionHypothesis ⊢
      omega
    · simp [chainNames, unnamed] at inductionHypothesis ⊢
      omega

/-- Where the chain is guarded, sparing the menu of the empty name is what is missing for all menus
to be guarded. -/
theorem sparesUnnamed_iff {menus : List Menu} (distinct : (chainNames menus).Nodup)
    (short : (chainNames menus).length ≤ chainLimit) :
    SparesUnnamed menus ↔ (menus.map Menu.name).Nodup ∧ menus.length ≤ chainLimit := by
  rw [nodup_iff_of_named, length_eq_add_chainNames, SparesUnnamed]
  constructor
  · rintro (none | ⟨once, room⟩)
    · exact ⟨⟨distinct, by omega⟩, by omega⟩
    · exact ⟨⟨distinct, by omega⟩, by omega⟩
  · rintro ⟨⟨_, atMostOnce⟩, bounded⟩
    omega

/-- A name that stays distinct and within the limit behind others leads neither back nor too
deep. -/
theorem not_leads_of_concat {names : List String} {name : String}
    (distinct : (names ++ [name]).Nodup) (bounded : (names ++ [name]).length ≤ chainLimit) :
    ¬(name ∈ names ∨ chainLimit ≤ names.length) := by
  rintro (back | deep)
  · obtain ⟨_, _, apart⟩ := List.nodup_append.mp distinct
    exact apart name back name (List.mem_singleton_self name) rfl
  · rw [List.length_append, List.length_singleton] at bounded
    omega

/-- The menubar of a registry read from a text has no name. -/
theorem name_menubar_parse (file text : String) : (parse file text).1.menubar.name = "" :=
  name_menubar_contributeAll _ {}

/-- The menus opened from the start stand on the chain as the source does. -/
theorem Starts.chainNames_eq {source : Menu} {opened : List Menu}
    (starts : registry.Starts source opened) (unnamed : registry.menubar.name = "") :
    chainNames opened = chainNames [source] := by
  cases starts with
  | menubar => simp [chainNames, unnamed]
  | named => rfl

variable {source : Menu} {opened path : List Menu}

/-- Along a descent the names on the chain are those of the menus being expanded that have one. They
are distinct and no more than the limit. -/
theorem Starts.chain (starts : registry.Starts source opened)
    (unnamed : registry.menubar.name = "")
    (descent : registry.Descent (chainNames [source]) source path) :
    chainNames (opened ++ path) = chainNames (source :: path) ∧
      (chainNames (opened ++ path)).Nodup ∧ (chainNames (opened ++ path)).length ≤ chainLimit := by
  have joined : chainNames (opened ++ path) = chainNames [source] ++ chainNames path := by
    rw [chainNames_append, starts.chainNames_eq unnamed]
  have distinct : (chainNames [source]).Nodup := by
    have alone : [source.name].Nodup := by simp
    exact alone.filter _
  have short : (chainNames [source]).length ≤ chainLimit := by
    have single : (chainNames [source]).length ≤ 1 := List.length_filter_le _ _
    exact Nat.le_trans single (by decide)
  have guarded := descent.guards_chain distinct short
  constructor
  · rw [joined, ← chainNames_append, List.singleton_append]
  · rw [joined]
    exact guarded

/-- Menus with a name are guarded in every expansion. -/
theorem Starts.guards_named (starts : registry.Starts source opened)
    (unnamed : registry.menubar.name = "") :
    registry.Guards source fun path => chainNames (opened ++ path) := by
  intro path descent
  obtain ⟨onChain, distinct, short⟩ := starts.chain unnamed descent
  refine ⟨distinct, short, ?_⟩
  intro entry _ name refers leads
  simp only [onChain] at leads
  apply emptied_of_not_entered refers
  have stopped : stops (chainNames (source :: path)) name = true := by
    simpa [stops] using leads
  simp [entered?, refers, stopped]

/-- A reference of the menu a descent ends in that enters a template takes the descent further, to
the template of its name. -/
theorem Descent.further {entry : Entry Menu} {name : String} {template : Menu}
    (descent : registry.Descent (chainNames [source]) source path)
    (member : entry ∈ (innermost source path).entries) (refers : entry.target? = some name)
    (entered : registry.entered? (chainNames (source :: path)) entry = some template) :
    template.name = name ∧
      registry.Descent (chainNames [source]) source (path ++ [template]) := by
  obtain ⟨named, _⟩ := entered?_eq_some_iff.mp entered
  rw [refers, Option.some.injEq] at named
  rw [← List.singleton_append, chainNames_append] at entered
  exact ⟨named.symm, descent.snoc member entered⟩

/-- All menus are guarded if and only if every descent spares the menu of the empty name.

Proof: what the guard ensures for all names is, next to what it ensures for those on the chain, that
the descent spares the menu of the empty name. Conversely, if all descents do, a reference that
leads back or too deep enters no template, because the descent would go on with a menu that is not
spared; and a menu of the empty name that refers to itself would be entered twice. -/
theorem Starts.guarded_iff (starts : registry.Starts source opened)
    (unnamed : registry.menubar.name = "") :
    registry.Guarded source opened ↔
      ∀ path, registry.Descent (chainNames [source]) source path →
        SparesUnnamed (opened ++ path) := by
  constructor
  · intro guarded path descent
    obtain ⟨_, distinct, short⟩ := starts.chain unnamed descent
    have here := guarded.guards path descent
    exact (sparesUnnamed_iff distinct short).mpr ⟨here.once, by simpa using here.bounded⟩
  · intro spares
    have within (path : List Menu)
        (descent : registry.Descent (chainNames [source]) source path) :
        ((opened ++ path).map Menu.name).Nodup ∧ (opened ++ path).length ≤ chainLimit := by
      obtain ⟨_, distinct, short⟩ := starts.chain unnamed descent
      exact (sparesUnnamed_iff distinct short).mp (spares path descent)
    constructor
    · intro context
      rw [expand?_returns_iff]
      rintro ⟨path, menu, descent, nameless, entry, member, refers⟩
      obtain ⟨twice, _⟩ := within _ (descent.repeats nameless member refers 1)
      simp [List.nodup_append] at twice
    · intro path descent
      obtain ⟨once, short⟩ := within path descent
      refine ⟨once, by simpa using short, ?_⟩
      intro entry member name refers leads
      apply emptied_of_not_entered refers
      cases entered : registry.entered? (chainNames (source :: path)) entry with
      | none => rfl
      | some template =>
        obtain ⟨same, further⟩ := descent.further member refers entered
        obtain ⟨distinct, bounded⟩ := within _ further
        rw [← List.append_assoc, List.map_append, List.map_singleton, same] at distinct
        rw [← List.append_assoc] at bounded
        exact absurd leads (not_leads_of_concat distinct (by simpa using bounded))

/-- A menu that is being expanded from the start is registered. -/
theorem Starts.registered (starts : registry.Starts source opened) {menu : Menu}
    (member : menu ∈ opened) : registry.hasMenu menu.name = true := by
  cases starts with
  | menubar => exact absurd member List.not_mem_nil
  | named among =>
    rw [List.mem_singleton.mp member, hasMenu, List.any_eq_true]
    exact ⟨source, among, by simp⟩

/-- Where no menu of the empty name is registered, every descent spares it. -/
theorem Starts.spares (starts : registry.Starts source opened)
    (absent : registry.hasMenu "" = false)
    (descent : registry.Descent (chainNames [source]) source path) :
    SparesUnnamed (opened ++ path) := by
  left
  rw [List.count_eq_zero]
  intro occurs
  obtain ⟨menu, member, unnamed⟩ := List.mem_map.mp occurs
  have present : registry.hasMenu menu.name = true := by
    rcases List.mem_append.mp member with early | later
    · exact starts.registered early
    · rw [hasMenu_eq_isSome, descent.registered later, Option.isSome_some]
  rw [unnamed, absent] at present
  contradiction

/-- The guard fails for the menu of the empty name only. For every definition, every source and every
context, an expansion returns if and only if it enters no menu of the empty name that refers to the
empty name. Menus with a name are always guarded; all registered menus are if and only if every
descent spares the menu of the empty name, so certainly where no such menu is registered. -/
theorem guard_misses_only_unnamed (file text : String) {source : Menu} {opened : List Menu}
    (starts : (parse file text).1.Starts source opened) :
    (∀ context, (∃ expanded, (parse file text).1.expand? context source = some expanded) ↔
        ¬(parse file text).1.Loops source) ∧
      ((parse file text).1.Guards source fun path => chainNames (opened ++ path)) ∧
      ((parse file text).1.Guarded source opened ↔
        ∀ path, (parse file text).1.Descent (chainNames [source]) source path →
          SparesUnnamed (opened ++ path)) ∧
      ((parse file text).1.hasMenu "" = false → (parse file text).1.Guarded source opened) := by
  have unnamed := name_menubar_parse file text
  refine ⟨fun context => expand?_returns_iff context source, ?_, ?_, ?_⟩
  · exact starts.guards_named unnamed
  · exact starts.guarded_iff unnamed
  · intro absent
    rw [starts.guarded_iff unnamed]
    intro path descent
    exact starts.spares absent descent

/-- A definition in which the menu of the empty name and the menu `A` refer to each other. -/
def entwined : String :=
  "menuset menubar submenu E \"\" end menu \"\" submenu A A end menu A submenu E \"\" end end"

/-- A definition in which the menu of the empty name refers to itself. -/
def selfReferring : String :=
  "menuset menubar submenu E \"\" end menu \"\" submenu E \"\" end end"

/-- A definition in which a menu with a name refers to itself. -/
def cyclic : String :=
  "menuset menubar submenu A A end menu A submenu A A end end"

/-- The registry that `entwined` defines. -/
theorem parse_entwined : (parse "menus" entwined).1 =
    { menubar := ⟨"", [.submenu "E" ""]⟩,
      menus := [⟨"", [.submenu "A" "A"]⟩, ⟨"A", [.submenu "E" ""]⟩] } := by
  decide +kernel

/-- The registry that `selfReferring` defines. -/
theorem parse_selfReferring : (parse "menus" selfReferring).1 =
    { menubar := ⟨"", [.submenu "E" ""]⟩, menus := [⟨"", [.submenu "E" ""]⟩] } := by
  decide +kernel

/-- From a menu with a name that leads to the menu of the empty name and back, every expansion
returns and the menus with a name are guarded. A menu with a name that refers to itself is guarded
as well. -/
theorem entwined_named_menu_guarded :
    (∃ source, (parse "menus" entwined).1.Starts source [source] ∧
        (∀ context, ∃ expanded,
          (parse "menus" entwined).1.expand? context source = some expanded) ∧
        (parse "menus" entwined).1.Guards source fun path => chainNames ([source] ++ path)) ∧
      (parse "menus" cyclic).1.Guarded (parse "menus" cyclic).1.menubar [] := by
  constructor
  · have starts : (parse "menus" entwined).1.Starts ⟨"A", [.submenu "E" ""]⟩
        [⟨"A", [.submenu "E" ""]⟩] := by
      apply Starts.named
      rw [parse_entwined]
      simp
    have ends : ¬(parse "menus" entwined).1.Loops ⟨"A", [.submenu "E" ""]⟩ := by
      rintro ⟨path, menu, descent, unnamed, entry, member, refers⟩
      have registered := descent.registered (List.mem_concat_self (a := menu))
      rw [parse_entwined, unnamed] at registered
      cases registered
      cases List.mem_singleton.mp member
      simp [Entry.submenu, Entry.target?] at refers
    obtain ⟨returns, guards, _⟩ := guard_misses_only_unnamed "menus" entwined starts
    exact ⟨_, starts, fun context => (returns context).mpr ends, guards⟩
  · obtain ⟨_, _, _, guarded⟩ := guard_misses_only_unnamed "menus" cyclic .menubar
    exact guarded (by decide +kernel)

/-- The guard does not see the menu of the empty name: it is entered from within itself by way of
another menu, and where it refers to itself no expansion returns. -/
theorem unnamed_menu_escapes_guard :
    ¬(parse "menus" entwined).1.Guarded (parse "menus" entwined).1.menubar [] ∧
      ∀ context, (parse "menus" selfReferring).1.expand? context
        (parse "menus" selfReferring).1.menubar = none := by
  constructor
  · intro guarded
    rw [parse_entwined] at guarded
    have there := List.mem_singleton_self (Entry.submenu "E" "")
    have back := List.mem_singleton_self (Entry.submenu "A" "A")
    have reentered := guarded.guards
      [⟨"", [.submenu "A" "A"]⟩, ⟨"A", [.submenu "E" ""]⟩, ⟨"", [.submenu "A" "A"]⟩]
      (.enter there rfl (.enter back rfl (.enter there rfl (.stay _ _))))
    simpa using reentered.once
  · intro context
    have loops : (parse "menus" selfReferring).1.Loops (parse "menus" selfReferring).1.menubar := by
      rw [parse_selfReferring]
      have there := List.mem_singleton_self (Entry.submenu "E" "")
      exact ⟨[], ⟨"", [.submenu "E" ""]⟩, .enter there rfl (.stay _ _), rfl, _, there, rfl⟩
    rw [Option.eq_none_iff_forall_ne_some]
    intro expanded returned
    exact (expand?_returns_iff context _).mp ⟨expanded, returned⟩ loops

end Menus.Registry
