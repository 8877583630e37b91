import Menus.Proofs.Grammar
import Menus.Proofs.Turns
import Menus.Proofs.Updates

/-!
# Blocks of menus turn by turn

A block of menus is read in a loop of its own, and so is a definition. A turn of a block that meets a
menu reads its body into the menu that is registered under the name, or into a new one, and a turn of a
definition that meets a block reads that. So up to three productions are entered at a time, each inside
the one before.

`Passage.readMenuset` collects what a block contributes before anything is added to a registry, and
`Registry.parse` does so for a whole definition. The loops come to the same: a menu that is extended in
its place is given the entries of its body, and the productions entered outside are asked for nothing.
-/

namespace Menus

/-- Reading a body leads onward. -/
theorem Menu.onward_readByTurns (menu : Menu) (cursor : Cursor) :
    cursor.Onward (menu.readByTurns cursor).2 := by
  rw [readByTurns_eq]
  exact ⟨rfl, Body.read_rest_length cursor.file cursor.pending⟩

namespace Statement

/-- A problem contributes nothing. -/
theorem contributions_problem (problem : Diagnostic) (statements : List Statement) :
    contributions (.problem problem :: statements) = contributions statements :=
  List.filterMap_cons_none rfl

/-- A problem is reported in front of those behind it. -/
theorem problems_problem (problem : Diagnostic) (statements : List Statement) :
    problems (.problem problem :: statements) = problem :: problems statements :=
  List.filterMap_cons_some rfl

end Statement

/-- The menu that is found under a name, or one without entries, is called by that name. -/
theorem name_getD_find? (name : String) (menus : List Menu) :
    ((menus.find? fun menu => menu.name == name).getD (.empty name)).name = name := by
  cases found : menus.find? fun menu => menu.name == name with
  | none => rfl
  | some menu =>
    have named := List.find?_some found
    rwa [beq_iff_eq] at named

/-- The menu that is found under a name takes its own place with more entries, or that at the end. -/
theorem replaceMenu_append (name : String) (entries : List (Entry Menu)) (menus : List Menu) :
    replaceMenu (((menus.find? fun menu => menu.name == name).getD (.empty name)).append entries) menus =
      extendMenus name entries menus := by
  induction menus with
  | nil => rfl
  | cons first rest inductionHypothesis =>
    by_cases same : first.name = name
    · simp [replaceMenu, extendMenus, same]
    · rw [List.find?_cons_of_neg (by simpa using same), replaceMenu, Menu.name_append,
        name_getD_find?, if_neg same, extendMenus, if_neg same, inductionHypothesis]

namespace Registry

/-- The menu called `name`, or one without entries where there is none. -/
def menuToExtend (registry : Registry) (name : String) : Menu :=
  (registry.menu? name).getD (.empty name)

/-- Giving entries to a menu is putting the menu with these entries in its place, or at the end. -/
theorem add_append (registry : Registry) (name : String) (entries : List (Entry Menu)) :
    registry.add ((registry.menuToExtend name).append entries) =
      registry.contribute ⟨some name, entries⟩ := by
  rw [add, menuToExtend, menu?, replaceMenu_append, contribute]

/-- A turn in a block of menus. -/
def turn (registry : Registry) (cursor : Cursor) : Turn Registry :=
  match cursor.next with
  | (.endOfInput, after) => .done registry after.reportEnd
  | (.keyword .close _, after) => .done registry after
  | (.keyword .menubar _, after) =>
    let (menubar, later) := registry.menubar.readByTurns after
    .again { registry with menubar } later
  | (.keyword .menu token, after) =>
    match after.argument? "menu name" token with
    | (none, later) => .again registry later
    | (some name, later) =>
      let (menu, last) := (registry.menuToExtend name.text).readByTurns later
      .again (registry.add menu) last
  | (.keyword _ token, after) | (.unknown token, after) =>
    .again registry (after.reportUnknown token)

/-- A turn in a block leads onward. -/
theorem advances_turn (registry : Registry) (cursor : Cursor) :
    (registry.turn cursor).Advances cursor := by
  rw [turn]
  split
  · rename_i after lexed
    exact Turn.advances_done lexed (after.onward_report _) registry
  · rename_i token after lexed
    exact Turn.advances_done lexed (.refl after) registry
  · rename_i token after lexed
    exact Turn.advances_again lexed (Menu.onward_readByTurns _ after) nofun _
  · rename_i token after lexed
    split
    · rename_i later missing
      exact Turn.advances_again lexed (Cursor.onward_argument? missing) nofun registry
    · rename_i name later found
      have read := Menu.onward_readByTurns (registry.menuToExtend name.text) later
      exact Turn.advances_again lexed ((Cursor.onward_argument? found).trans read) nofun _
  · rename_i keyword token after _ _ _ lexed
    exact Turn.advances_again lexed (after.onward_report _) nofun registry
  · rename_i token after lexed
    exact Turn.advances_again lexed (after.onward_report _) nofun registry

/-- The loop that reads a block of menus. -/
def turns : Loop Registry := ⟨turn, advances_turn⟩

/-- Reads a block of menus turn by turn, in its production and out of it again. -/
def readByTurns (registry : Registry) (cursor : Cursor) : Registry × Cursor :=
  turns.inside .menuset registry cursor

variable {cursor : Cursor} {rest : List Token}

/-- A diagnostic at the beginning of a block is reported before the rest is read. -/
theorem read_of_problem {problem : Diagnostic}
    (first : Passage.readMenuset cursor.file cursor.pending =
      (Passage.readMenuset cursor.file rest).after [.problem problem]) (registry : Registry) :
    registry.read cursor = registry.read ((cursor.withPending rest).report problem) := by
  rw [read, read, first]
  simp [Passage.after, Cursor.withPending, Cursor.report, Statement.contributions_problem,
    Statement.problems_problem]

/-- A body at the beginning of a block gives its entries before the rest is read. -/
theorem read_of_body {menu : Option String} {body : Body}
    (first : Passage.readMenuset cursor.file cursor.pending =
      (Passage.readMenuset cursor.file body.rest).after (Statement.ofBody menu body))
    (registry : Registry) :
    registry.read cursor = (registry.contribute ⟨menu, body.entries⟩).read
      { cursor with pending := body.rest, diagnostics := cursor.diagnostics ++ body.problems } := by
  rw [read, read, first]
  simp [Passage.after, Statement.contributions_append, Statement.problems_append,
    Statement.contributions_ofBody, Statement.problems_ofBody, contributeAll]

/-- Behind the keyword of a named menu, a turn takes the name and reads the body. -/
theorem read_of_menu {token : Token} (innermost : cursor.productions.head? = some .menuset)
    (ahead : cursor.pending = token :: rest)
    (known : Production.menuset.keyword? token = some .menu) (registry : Registry) :
    registry.read cursor =
      Turn.finish read
        (match (cursor.withPending rest).argument? "menu name" token with
        | (none, later) => .again registry later
        | (some name, later) =>
          let (menu, last) := (registry.menuToExtend name.text).readByTurns later
          .again (registry.add menu) last) := by
  have innermostToo : (cursor.withPending rest).productions.head? = some .menuset := innermost
  rcases Production.menuset.refuses_or_takes rest with refused | ⟨name, afterName, rfl, plain⟩
  · rw [Cursor.argument?_of_refused innermostToo refused]
    apply read_of_problem
    rw [ahead, Passage.readMenuset, known]
    cases rest with
    | nil => rfl
    | cons other afterOther => exact if_neg (refused other rfl)
  · have body : Passage.readMenuset cursor.file cursor.pending =
        (Passage.readMenuset cursor.file (Body.read cursor.file afterName).rest).after
          (Statement.ofBody (some name.text) (Body.read cursor.file afterName)) := by
      rw [ahead, Passage.readMenuset, known]
      exact if_pos plain
    rw [Cursor.argument?_of_plain innermostToo rfl plain, read_of_body body, ← add_append]
    dsimp only [Cursor.withPending_withPending]
    rw [Menu.readByTurns_eq]
    rfl

/-- The turns of a block are the beginnings of what is read of it. -/
theorem reads_turns : turns.Reads .menuset read where
  frames registry cursor := rfl
  turn {registry cursor} innermost := by
    have named := Cursor.production_of_innermost innermost
    show registry.read cursor = (registry.turn cursor).finish read
    cases ahead : cursor.pending with
    | nil =>
      rw [turn, Cursor.next_of_end ahead, read, ahead, Passage.readMenuset]
      dsimp only
      rw [Statement.contributions_problem, Statement.problems_problem, ← named, ← ahead]
      rfl
    | cons token rest =>
      have skipped (unknown : Passage.readMenuset cursor.file (token :: rest) =
          (Passage.readMenuset cursor.file rest).after [.problem
            (.unknownTag cursor.file token.line token.text Production.menuset.name)]) :
          registry.read cursor = registry.read ((cursor.withPending rest).reportUnknown token) := by
        rw [← ahead] at unknown
        rw [read_of_problem unknown, ← named]
        rfl
      cases known : Production.menuset.keyword? token with
      | none =>
        rw [turn, Cursor.next_of_unknown innermost ahead known]
        exact skipped (by rw [Passage.readMenuset, known])
      | some keyword =>
        rw [turn, Cursor.next_of_keyword innermost ahead known]
        cases keyword with
        | close =>
          rw [read, ahead, Passage.readMenuset, known]
          simp [Turn.finish, Cursor.withPending, Statement.contributions, Statement.problems,
            contributeAll]
        | menubar =>
          have body : Passage.readMenuset cursor.file cursor.pending =
              (Passage.readMenuset cursor.file (Body.read cursor.file rest).rest).after
                (Statement.ofBody none (Body.read cursor.file rest)) := by
            rw [ahead, Passage.readMenuset, known]
          rw [read_of_body body]
          dsimp only
          rw [Menu.readByTurns_eq]
          rfl
        | menu => exact read_of_menu innermost ahead known registry
        | _ => exact skipped (by rw [Passage.readMenuset, known])

/-- Turn by turn a block is read as it is from its tokens, and the productions stand as they did. -/
theorem readByTurns_eq (registry : Registry) (cursor : Cursor) :
    registry.readByTurns cursor = registry.read cursor :=
  reads_turns.inside_eq registry cursor

/-- Reading a block leads onward. -/
theorem onward_readByTurns (registry : Registry) (cursor : Cursor) :
    cursor.Onward (registry.readByTurns cursor).2 := by
  rw [readByTurns_eq]
  exact ⟨rfl, Passage.readMenuset_rest_length cursor.file cursor.pending⟩

/-- A turn in a definition: blocks of menus stand there and nothing else. -/
def turnOutside (registry : Registry) (cursor : Cursor) : Turn Registry :=
  match cursor.next with
  | (.endOfInput, after) => .done registry after
  | (.keyword .menuset _, after) =>
    let (extended, later) := registry.readByTurns after
    .again extended later
  | (.keyword _ token, after) | (.unknown token, after) =>
    .again registry (after.reportUnknown token)

/-- A turn in a definition leads onward. -/
theorem advances_turnOutside (registry : Registry) (cursor : Cursor) :
    (registry.turnOutside cursor).Advances cursor := by
  rw [turnOutside]
  split
  · rename_i after lexed
    exact Turn.advances_done lexed (.refl after) registry
  · rename_i token after lexed
    exact Turn.advances_again lexed (onward_readByTurns registry after) nofun _
  · rename_i keyword token after _ lexed
    exact Turn.advances_again lexed (after.onward_report _) nofun registry
  · rename_i token after lexed
    exact Turn.advances_again lexed (after.onward_report _) nofun registry

/-- The loop that reads a definition. -/
def turnsOutside : Loop Registry := ⟨turnOutside, advances_turnOutside⟩

/-- Reads the rest of a definition at the cursor. -/
def readOutside (registry : Registry) (cursor : Cursor) : Registry × Cursor :=
  let statements := Statement.readDefinition cursor.file cursor.pending
  (registry.contributeAll (Statement.contributions statements),
    { cursor with
      pending := []
      diagnostics := cursor.diagnostics ++ Statement.problems statements })

/-- The turns of a definition are the beginnings of what is read of it. -/
theorem reads_turnsOutside : turnsOutside.Reads .definition readOutside where
  frames registry cursor := rfl
  turn {registry cursor} innermost := by
    have named := Cursor.production_of_innermost innermost
    show registry.readOutside cursor = (registry.turnOutside cursor).finish readOutside
    cases ahead : cursor.pending with
    | nil =>
      rw [turnOutside, Cursor.next_of_end ahead, readOutside, ahead, Statement.readDefinition, ← ahead]
      simp [Turn.finish, Statement.contributions, Statement.problems, contributeAll]
    | cons token rest =>
      have skipped (unknown : Statement.readDefinition cursor.file (token :: rest) =
          .problem (.unknownTag cursor.file token.line token.text Production.definition.name) ::
            Statement.readDefinition cursor.file rest) :
          registry.readOutside cursor =
            registry.readOutside ((cursor.withPending rest).reportUnknown token) := by
        rw [readOutside, readOutside, ahead, unknown, Statement.contributions_problem,
          Statement.problems_problem, ← named]
        simp [Cursor.withPending, Cursor.reportUnknown, Cursor.report, Cursor.production]
      cases known : Production.definition.keyword? token with
      | none =>
        rw [turnOutside, Cursor.next_of_unknown innermost ahead known]
        exact skipped (by rw [Statement.readDefinition, known])
      | some keyword =>
        rw [turnOutside, Cursor.next_of_keyword innermost ahead known]
        cases keyword with
        | menuset =>
          dsimp only
          rw [readByTurns_eq, readOutside, ahead, Statement.readDefinition, known]
          simp [Turn.finish, readOutside, read, Cursor.withPending, Statement.contributions_append,
            Statement.problems_append, contributeAll]
        | _ => exact skipped (by rw [Statement.readDefinition, known])

/-- Turn by turn a definition text is read as it is from its tokens. -/
theorem parse_eq_turns (file text : String) :
    parse file text =
      let (registry, cursor) := turnsOutside.inside .definition {} (.ofText file text)
      (registry, cursor.diagnostics) := by
  rw [reads_turnsOutside.inside_eq]
  rfl

end Registry

end Menus
