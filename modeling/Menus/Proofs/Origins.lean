import Menus.Proofs.References
import Menus.Proofs.Shares

/-!
# Where the entries of an expanded menu come from

Every entry of an expanded menu comes from an entry of its template: what the template's entry gives
carries it along, and tidying drops entries of both sides together. The same holds inside the menus
that are opened by entries of that menu. So each entry of a whole expanded tree is traced to the
template entry that gave it, also where a generated list holds an entry that looks like a reference.

An entry that comes from a reference to a registered menu opens what expanding that menu alone gives,
wherever in the tree it stands, if from the source all ways are clear.
-/

namespace Menus.Registry

section Traces

variable (registry : Registry) (context : Context)

/-- The entries of the menu that a template is expanded to inside a chain, each behind the entry of
the template that it comes from. -/
def origins? (chain : List String) (template : Menu) : Option (List (Entry Menu × Entry Menu)) :=
  (template.entries.mapM fun origin =>
      (registry.share? context (chainInside chain template.name) origin).map fun share =>
        share.map fun kept => (origin, kept)).map fun traces =>
    tidied (fun trace => trace.2.isSeparator) traces.flatten

/-- The entry `kept` of `shown`, to which `template` is expanded inside a chain, comes from the entry
`origin` of the template. -/
def Traced (chain : List String) (template shown : Menu) (origin kept : Entry Menu) : Prop :=
  ∃ traces, registry.origins? context chain template = some traces ∧
    shown.entries = traces.map Prod.snd ∧ (origin, kept) ∈ traces

/-- The entry `kept` stands somewhere in the tree `shown`, to which `template` is expanded inside a
chain, and comes from the template entry `origin`. -/
inductive ComesFrom : List String → Menu → Menu → Entry Menu → Entry Menu → Prop where
  | top {chain : List String} {template shown : Menu} {origin kept : Entry Menu}
      (traced : Traced registry context chain template shown origin kept) :
      ComesFrom chain template shown origin kept
  | within {chain : List String} {template shown inner child : Menu}
      {opening opened origin kept : Entry Menu}
      (traced : Traced registry context chain template shown opening opened)
      (entered : registry.entered? (chainInside chain template.name) opening = some inner)
      (attached : opened.child? = some child)
      (deeper : ComesFrom (chainInside chain template.name) inner child origin kept) :
      ComesFrom chain template shown origin kept

end Traces

variable {registry : Registry} {context : Context}

/-- Where an expansion returns, the origins of its entries are known. -/
theorem exists_origins? {levels : Nat} {chain : List String} {template : Menu} {expanded : Expanded}
    (returned : registry.expandWithin context levels chain template = some expanded) :
    ∃ traces, registry.origins? context chain template = some traces ∧
      expanded.menu.entries = traces.map Prod.snd := by
  obtain ⟨shares, mapped, entries⟩ := entries_of_expandWithin returned
  obtain ⟨traces, traced⟩ : ∃ traces, template.entries.mapM (fun origin =>
      (registry.share? context (chainInside chain template.name) origin).map fun share =>
        share.map fun kept => (origin, kept)) = some traces := by
    rw [← Option.isSome_iff_exists, isSome_mapM_iff]
    intro origin member
    rw [Option.isSome_map]
    exact (isSome_mapM_iff _ _).mp (Option.isSome_of_eq_some mapped) origin member
  have projected := mapM_eq_some_map (g := registry.share? context (chainInside chain template.name))
    (List.map Prod.snd) (fun origin _ trace given => by
      obtain ⟨share, found, rfl⟩ := Option.map_eq_some_iff.mp given
      simpa [Function.comp_def] using found) traced
  rw [mapped, Option.some.injEq] at projected
  refine ⟨_, by rw [origins?, traced]; rfl, ?_⟩
  rw [entries, projected, ← List.map_flatten]
  exact (map_tidied Entry.isSeparator Prod.snd _).symm

/-- What is traced to an entry of a template is in the share of this entry. -/
theorem Traced.mem_share {chain : List String} {template shown : Menu} {origin kept : Entry Menu}
    (traced : registry.Traced context chain template shown origin kept) :
    origin ∈ template.entries ∧
      ∃ share, registry.share? context (chainInside chain template.name) origin = some share ∧
        kept ∈ share := by
  obtain ⟨_, found, _, among⟩ := traced
  obtain ⟨traces, mapped, rfl⟩ := Option.map_eq_some_iff.mp found
  obtain ⟨trace, member, holds⟩ := List.mem_flatten.mp ((tidied_sublist _ _).subset among)
  obtain ⟨source, stands, given⟩ := exists_of_mem_mapM mapped member
  obtain ⟨share, shared, rfl⟩ := Option.map_eq_some_iff.mp given
  obtain ⟨_, inShare, same⟩ := List.mem_map.mp holds
  cases same
  exact ⟨stands, share, shared, inShare⟩

/-- Every entry of an expanded menu is traced to an entry of its template. -/
theorem exists_traced {levels : Nat} {chain : List String} {template : Menu} {expanded : Expanded}
    (returned : registry.expandWithin context levels chain template = some expanded)
    {kept : Entry Menu} (member : kept ∈ expanded.menu.entries) :
    ∃ origin ∈ template.entries,
      registry.Traced context chain template expanded.menu origin kept := by
  obtain ⟨traces, found, entries⟩ := exists_origins? returned
  obtain ⟨⟨origin, _⟩, among, rfl⟩ := List.mem_map.mp (entries ▸ member)
  have traced : registry.Traced context chain template expanded.menu origin _ :=
    ⟨traces, found, entries, among⟩
  exact ⟨origin, traced.mem_share.1, traced⟩

/-- What is kept of a reference has the menu attached that the reference opens. -/
theorem child?_of_mem_share {chain : List String} {origin kept : Entry Menu} {name : String}
    {share : List (Entry Menu)} (refers : origin.target? = some name)
    (shared : registry.share? context chain origin = some share) (member : kept ∈ share) :
    registry.opened? context chain name = kept.child? := by
  obtain ⟨kind, label, optional, status⟩ := origin
  cases kind with
  | submenu target former =>
    cases refers
    obtain ⟨child, opened, rfl⟩ := Option.map_eq_some_iff.mp shared
    split at member
    · exact absurd member List.not_mem_nil
    · cases List.mem_singleton.mp member
      exact opened
  | command | separator | generated => simp [Entry.target?] at refers

/-- A reference to a registered menu from which all ways are clear opens what this menu is expanded
to alone. -/
theorem Clear.opened?_eq {chain : List String} {source template : Menu} {entry : Entry Menu}
    (clear : registry.Clear chain source) (member : entry ∈ source.entries)
    (refers : entry.target? = some template.name)
    (registered : registry.menu? template.name = some template) :
    registry.opened? context (chainInside chain source.name) template.name =
      (registry.expand? context template).map Expanded.menu := by
  obtain ⟨_, fresh, room, _⟩ :=
    entered?_eq_some_iff.mp (clear.entered member refers registered)
  rw [chainInside_eq, opened?, if_neg (not_or.mpr ⟨fresh, Nat.not_le.mpr room⟩), registered]
  exact (clear.inside member refers registered).menu_expandWithin levelLimit

/-- Inside a chain behind which all ways are clear, an entry that comes from a reference to a
registered menu opens what this menu is expanded to alone, and the entries in there come from those
of the registered menu.

Proof: by induction on where the entry stands. At the top the reference opens the registered menu
behind the chain, which gives what it gives alone. Further below, ways are clear from the menu
entered on the way there. -/
theorem ComesFrom.opens_alone {chain : List String} {source shown : Menu}
    {origin kept : Entry Menu}
    (comes : registry.ComesFrom context chain source shown origin kept)
    (clear : registry.Clear chain source) {template : Menu}
    (refers : origin.target? = some template.name)
    (registered : registry.menu? template.name = some template) :
    ∃ alone, registry.expand? context template = some alone ∧ kept.child? = some alone.menu ∧
      ∀ inner ∈ alone.menu.entries, ∃ inside ∈ template.entries,
        registry.ComesFrom context chain source shown inside inner := by
  induction comes with
  | @top chain source shown origin kept traced =>
    obtain ⟨member, share, shared, inShare⟩ := traced.mem_share
    have opened := child?_of_mem_share refers shared inShare
    have within := clear.inside member refers registered
    have entered := clear.entered member refers registered
    rw [← chainInside_eq] at within entered
    obtain ⟨alone, returned⟩ := within.alone.exists_expand? context
    have attached : kept.child? = some alone.menu := by
      rw [← opened, clear.opened?_eq member refers registered, returned]
      rfl
    refine ⟨alone, returned, attached, fun inner among => ?_⟩
    obtain ⟨nested, expands, same⟩ := Option.map_eq_some_iff.mp
      ((within.menu_expandWithin levelLimit).trans (congrArg (Option.map Expanded.menu) returned))
    rw [← same] at attached among
    obtain ⟨inside, stands, leads⟩ := exists_traced expands among
    exact ⟨inside, stands, .within traced entered attached (.top leads)⟩
  | @within chain source shown inner child opening opened origin kept traced entered attached _
      inductionHypothesis =>
    obtain ⟨opens, _, _, known⟩ := entered?_eq_some_iff.mp entered
    have within := clear.inside traced.mem_share.1 opens known
    rw [← chainInside_eq] at within
    obtain ⟨alone, returned, holds, comes⟩ := inductionHypothesis within refers
    refine ⟨alone, returned, holds, fun inner among => ?_⟩
    obtain ⟨inside, stands, leads⟩ := comes inner among
    exact ⟨inside, stands, .within traced entered attached leads⟩

/-- A submenu looks the same wherever and however deep it is referenced. If from a source all ways
are clear, then its expansion returns, and every entry of the expanded tree that comes from a
reference to a registered menu opens exactly what expanding this menu alone gives. All entries of the
tree are covered: those of the expanded menu come from entries of the source, and those of each menu
opened in this way from entries of the menu registered. -/
theorem submenus_open_as_alone (registry : Registry) (context : Context) (source : Menu)
    (clear : registry.Clear [] source) :
    ∃ expanded, registry.expand? context source = some expanded ∧
      (∀ kept ∈ expanded.menu.entries, ∃ origin ∈ source.entries,
        registry.ComesFrom context [] source expanded.menu origin kept) ∧
      ∀ origin kept, registry.ComesFrom context [] source expanded.menu origin kept →
        ∀ name template, origin.target? = some name → registry.menu? name = some template →
          ∃ alone, registry.expand? context template = some alone ∧
            kept.child? = some alone.menu ∧
            ∀ inner ∈ alone.menu.entries, ∃ inside ∈ template.entries,
              registry.ComesFrom context [] source expanded.menu inside inner := by
  obtain ⟨expanded, returned⟩ := clear.exists_expand? context
  refine ⟨expanded, returned, ?_, ?_⟩
  · intro kept member
    obtain ⟨origin, stands, traced⟩ := exists_traced returned member
    exact ⟨origin, stands, .top traced⟩
  · intro origin kept comes name template refers registered
    obtain rfl := name_of_menu? registered
    exact comes.opens_alone clear refers registered

/-- The menu `run`, referred to by the menubar and by another menu. -/
def sharing : Registry where
  menubar := ⟨"", [.submenu "Start" "run", .submenu "Tools" "tools"]⟩
  menus := [⟨"tools", [.submenu "Again" "run"]⟩, ⟨"run", [.command "Run" (.ofMenu "run" "")]⟩]

/-- Every command can run. -/
def sharingContext : Context where
  statusOf _ := .enabled

/-- From the menubar all ways are clear. -/
theorem clear_sharing : sharing.Clear [] sharing.menubar := by
  have atRun (path : List Menu) (way : sharing.Way ⟨"run", [.command "Run" (.ofMenu "run" "")]⟩ path) :
      path.map Menu.name = [] := by
    cases way with
    | stay => rfl
    | refer member refers =>
      cases List.mem_singleton.mp member
      simp [Entry.command, Entry.target?] at refers
  have atTools (path : List Menu) (way : sharing.Way ⟨"tools", [.submenu "Again" "run"]⟩ path) :
      path.map Menu.name ∈ [[], ["run"]] := by
    cases way with
    | stay => simp
    | refer member refers registered further =>
      cases List.mem_singleton.mp member
      cases refers
      cases registered
      simp [atRun _ further]
  have atMenubar (path : List Menu) (way : sharing.Way sharing.menubar path) :
      path.map Menu.name ∈ [[], ["run"], ["tools"], ["tools", "run"]] := by
    cases way with
    | stay => simp
    | refer member refers registered further =>
      rcases List.mem_cons.mp member with rfl | member
      · cases refers
        cases registered
        simp [atRun _ further]
      · cases List.mem_singleton.mp member
        cases refers
        cases registered
        simpa using atTools _ further
  have all : ∀ names ∈ [[], ["run"], ["tools"], ["tools", "run"]],
      names.Nodup ∧ names.length ≤ chainLimit := by
    decide
  constructor
  · exact fun path way => (all _ (atMenubar path way)).1
  · exact fun path way => (all _ (atMenubar path way)).2

/-- Both references to the shared menu open what it is expanded to alone, the one in the menubar and
the one inside the other menu. -/
theorem shared_menu_opens_as_alone :
    sharing.Clear [] sharing.menubar ∧
      ∃ expanded alone direct nested,
        sharing.expand? sharingContext sharing.menubar = some expanded ∧
        sharing.expand? sharingContext
          ⟨"run", [.command "Run" (.ofMenu "run" "")]⟩ = some alone ∧
        alone.menu.entries.map Entry.label = ["Run"] ∧
        sharing.ComesFrom sharingContext [] sharing.menubar expanded.menu
          (.submenu "Start" "run") direct ∧
        direct.child? = some alone.menu ∧
        sharing.ComesFrom sharingContext [] sharing.menubar expanded.menu
          (.submenu "Again" "run") nested ∧
        nested.child? = some alone.menu := by
  obtain ⟨expanded, returned, _, opens⟩ :=
    submenus_open_as_alone sharing sharingContext sharing.menubar clear_sharing
  cases returned
  obtain ⟨alone, expands, first, _⟩ :=
    opens (.submenu "Start" "run") _ (.top ⟨_, rfl, rfl, .head _⟩) _ _ rfl rfl
  obtain ⟨again, expandsAgain, second, _⟩ :=
    opens (.submenu "Again" "run") _
      (.within ⟨_, rfl, rfl, .tail _ (.head _)⟩ rfl rfl (.top ⟨_, rfl, rfl, .head _⟩)) _ _ rfl rfl
  cases expands
  cases expandsAgain
  exact ⟨clear_sharing, _, _, _, _, rfl, rfl, rfl, .top ⟨_, rfl, rfl, .head _⟩, first,
    .within ⟨_, rfl, rfl, .tail _ (.head _)⟩ rfl rfl (.top ⟨_, rfl, rfl, .head _⟩), second⟩

end Menus.Registry
