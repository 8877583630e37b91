import Menus.Definition.Body

/-!
# Reading turn by turn

What a production holds is read in a loop at a cursor. The loop enters the production, and each turn
takes the next token, which the innermost production classifies; it is the innermost production, too,
that refuses arguments and that problems name. The last turn is the one that meets the end of the
production or of the tokens. Then the production is left.

`Body.read` takes tokens alone. It knows which production they are in and enters none. A loop comes to
the same, whatever productions have been entered before it: while it runs they stand behind the one it
has entered and are asked for nothing, and afterwards they stand as they did.
-/

namespace Menus

namespace Production

/-- The production takes no argument from the tokens: there is none, or a keyword stands in front. -/
def Refuses (production : Production) (tokens : List Token) : Prop :=
  ∀ token ∈ tokens.head?, ¬production.takesArgument token = true

/-- Tokens are refused, or the first one is an argument. -/
theorem refuses_or_takes (production : Production) (tokens : List Token) :
    production.Refuses tokens ∨
      ∃ token rest, tokens = token :: rest ∧ production.takesArgument token = true := by
  cases tokens with
  | nil => exact .inl nofun
  | cons token rest =>
    by_cases plain : production.takesArgument token = true
    · exact .inr ⟨token, rest, rfl, plain⟩
    · refine .inl ?_
      rintro _ ⟨⟩
      exact plain

end Production

namespace Cursor

/-- The cursor with other tokens left. -/
def withPending (cursor : Cursor) (pending : List Token) : Cursor := { cursor with pending }

/-- Only the tokens given last are left. -/
@[simp] theorem withPending_withPending (cursor : Cursor) (first last : List Token) :
    (cursor.withPending first).withPending last = cursor.withPending last := rfl

/-- Where no token is left, the input ends. -/
theorem next_of_end {cursor : Cursor} (spent : cursor.pending = []) :
    cursor.next = (.endOfInput, cursor) := by
  rw [next, spent]

section Innermost

variable {cursor : Cursor} {production : Production} {token : Token} {rest : List Token}
  (innermost : cursor.productions.head? = some production)

include innermost

/-- The innermost production decides which tokens are keywords. -/
theorem keyword?_of_innermost (token : Token) : cursor.keyword? token = production.keyword? token := by
  rw [keyword?, innermost]
  rfl

/-- The innermost production is the one that problems name. -/
theorem production_of_innermost : cursor.production = production.name := by
  obtain ⟨outer, entered⟩ := List.head?_eq_some_iff.mp innermost
  rw [Cursor.production, entered]

/-- A token that is no keyword is taken as unknown. -/
theorem next_of_unknown (ahead : cursor.pending = token :: rest)
    (unknown : production.keyword? token = none) :
    cursor.next = (.unknown token, cursor.withPending rest) := by
  rw [← keyword?_of_innermost innermost] at unknown
  rw [next, ahead]
  dsimp only
  rw [unknown, withPending]

/-- A keyword is taken. -/
theorem next_of_keyword {keyword : Keyword} (ahead : cursor.pending = token :: rest)
    (known : production.keyword? token = some keyword) :
    cursor.next = (.keyword keyword token, cursor.withPending rest) := by
  rw [← keyword?_of_innermost innermost] at known
  rw [next, ahead]
  dsimp only
  rw [known, withPending]

/-- A token that is no keyword is an argument. -/
theorem argument?_of_plain (ahead : cursor.pending = token :: rest)
    (plain : production.takesArgument token = true) (expected : String) (head : Token) :
    cursor.argument? expected head = (some token, cursor.withPending rest) := by
  rw [Production.takesArgument, ← keyword?_of_innermost innermost] at plain
  rw [argument?, ahead]
  exact if_pos plain

/-- Where the production refuses the tokens, the argument is missing. -/
theorem argument?_of_refused (refused : production.Refuses cursor.pending) (expected : String)
    (head : Token) :
    cursor.argument? expected head =
      (none, cursor.report (.missingArgument cursor.file head.line expected head.text)) := by
  rw [argument?]
  cases ahead : cursor.pending with
  | nil => rfl
  | cons token rest =>
    have isKeyword := refused token (by rw [ahead]; rfl)
    rw [Production.takesArgument, ← keyword?_of_innermost innermost] at isKeyword
    exact if_neg isKeyword

end Innermost

/-- Takes the label of a line and the second argument behind it. -/
def arguments? (cursor : Cursor) (second : String) (head : Token) :
    Option (Token × Token) × Cursor :=
  match cursor.argument? "label" head with
  | (none, after) => (none, after)
  | (some label, after) =>
    match after.argument? second label with
    | (none, later) => (none, later)
    | (some argument, later) => (some (label, argument), later)

/-- One cursor stands behind another: in the same productions, with no more tokens left. -/
structure Onward (cursor after : Cursor) : Prop where
  productions : after.productions = cursor.productions
  pending : after.pending.length ≤ cursor.pending.length

namespace Onward

/-- A cursor stands behind itself. -/
theorem refl (cursor : Cursor) : cursor.Onward cursor := ⟨rfl, Nat.le_refl _⟩

/-- What stands behind a cursor that stands behind another one stands behind that one. -/
theorem trans {cursor after later : Cursor} (first : cursor.Onward after)
    (second : after.Onward later) : cursor.Onward later :=
  ⟨second.productions.trans first.productions, Nat.le_trans second.pending first.pending⟩

end Onward

variable {cursor after : Cursor} {head : Token}

/-- A report moves nothing. -/
theorem onward_report (cursor : Cursor) (diagnostic : Diagnostic) :
    cursor.Onward (cursor.report diagnostic) :=
  ⟨rfl, Nat.le_refl _⟩

/-- Where one more token is left, the cursor behind it stands onward. -/
theorem onward_withPending {token : Token} {rest : List Token}
    (ahead : cursor.pending = token :: rest) : cursor.Onward (cursor.withPending rest) := by
  refine ⟨rfl, ?_⟩
  rw [ahead]
  exact Nat.le_succ _

/-- Taking the next token leads onward, and a token is taken unless the input ends. -/
theorem onward_next {lexeme : Lexeme} (lexed : cursor.next = (lexeme, after)) :
    cursor.Onward after ∧
      (lexeme = .endOfInput ∨ after.pending.length < cursor.pending.length) := by
  rw [next] at lexed
  split at lexed
  · cases lexed
    exact ⟨.refl cursor, .inl rfl⟩
  · rename_i token rest ahead
    have taken : rest.length < cursor.pending.length := ahead ▸ Nat.lt_succ_self _
    dsimp only at lexed
    split at lexed
    · cases lexed
      exact ⟨onward_withPending ahead, .inr taken⟩
    · cases lexed
      exact ⟨onward_withPending ahead, .inr taken⟩

/-- Taking an argument leads onward, be it there or not. -/
theorem onward_argument? {expected : String} {argument : Option Token}
    (asked : cursor.argument? expected head = (argument, after)) : cursor.Onward after := by
  rw [argument?] at asked
  split at asked
  · cases asked
    exact cursor.onward_report _
  · rename_i token rest ahead
    split at asked
    · cases asked
      exact onward_withPending ahead
    · cases asked
      exact cursor.onward_report _

/-- Taking both arguments leads onward, be they there or not. -/
theorem onward_arguments? {second : String} {arguments : Option (Token × Token)}
    (asked : cursor.arguments? second head = (arguments, after)) : cursor.Onward after := by
  rw [arguments?] at asked
  split at asked
  · rename_i missing
    cases asked
    exact onward_argument? missing
  · rename_i label behind found
    split at asked
    · rename_i missing
      cases asked
      exact (onward_argument? found).trans (onward_argument? missing)
    · rename_i argument later alsoFound
      cases asked
      exact (onward_argument? found).trans (onward_argument? alsoFound)

end Cursor

/-- What a turn comes to: there is another one, or the loop is done. -/
inductive Turn (State : Type) where
  | again (state : State) (cursor : Cursor)
  | done (state : State) (cursor : Cursor)

namespace Turn

variable {State : Type}

/-- The cursor behind a turn. -/
def cursor : Turn State → Cursor
  | again _ cursor | done _ cursor => cursor

/-- What is read when `read` does what is left to do behind a turn. -/
def finish (read : State → Cursor → State × Cursor) : Turn State → State × Cursor
  | again state cursor => read state cursor
  | done state cursor => (state, cursor)

/-- The turn leads onward from a cursor, and takes a token if there is another turn. -/
structure Advances (turn : Turn State) (cursor : Cursor) : Prop where
  onward : cursor.Onward turn.cursor
  shorter : ∀ {next after}, turn = .again next after → after.pending.length < cursor.pending.length

variable {cursor after later : Cursor} {lexeme : Lexeme} (lexed : cursor.next = (lexeme, after))
  (further : after.Onward later)

include lexed further

/-- A last turn leads onward. -/
theorem advances_done (state : State) : (done state later).Advances cursor :=
  ⟨(Cursor.onward_next lexed).1.trans further, nofun⟩

/-- Any other turn leads onward when it has taken a token. -/
theorem advances_again (isToken : lexeme ≠ .endOfInput) (state : State) :
    (again state later).Advances cursor := by
  obtain ⟨onward, taken⟩ := Cursor.onward_next lexed
  refine ⟨onward.trans further, ?_⟩
  rintro _ _ ⟨⟩
  exact Nat.lt_of_le_of_lt further.pending (taken.resolve_left isToken)

end Turn

/-- A loop whose turns lead onward. -/
structure Loop (State : Type) where
  turn : State → Cursor → Turn State
  advances : ∀ state cursor, (turn state cursor).Advances cursor

namespace Loop

variable {State : Type}

/-- Takes turns until there is no other one. -/
def run (loop : Loop State) (state : State) (cursor : Cursor) : State × Cursor :=
  match _turned : loop.turn state cursor with
  | .again next after => loop.run next after
  | .done last after => (last, after)
termination_by cursor.pending.length
decreasing_by exact (loop.advances state cursor).shorter _turned

/-- Runs the loop in a production, which is left when the loop is done. -/
def inside (loop : Loop State) (production : Production) (state : State) (cursor : Cursor) :
    State × Cursor :=
  let (last, after) := loop.run state (cursor.enter production)
  (last, after.leave)

/-- The turns of the loop are the beginnings of what is read, where the production is the innermost
one. -/
structure Reads (loop : Loop State) (production : Production)
    (read : State → Cursor → State × Cursor) : Prop where
  /-- A turn and what is left to read behind it make up what is read. -/
  turn : ∀ {state cursor}, cursor.productions.head? = some production →
    read state cursor = (loop.turn state cursor).finish read
  /-- What is read does not depend on the productions around this one. -/
  frames : ∀ state cursor, read state (cursor.enter production) =
    ((read state cursor).1, (read state cursor).2.enter production)

namespace Reads

variable {loop : Loop State} {production : Production} {read : State → Cursor → State × Cursor}

/-- All turns of the loop make up what is read.

Proof: by induction along the loop. No turn changes the productions, so the innermost one stays what it
is. -/
theorem run_eq (reads : loop.Reads production read) {state : State} {cursor : Cursor}
    (innermost : cursor.productions.head? = some production) :
    loop.run state cursor = read state cursor := by
  fun_induction loop.run state cursor with
  | case1 state cursor next after turned inductionHypothesis =>
    have kept := (loop.advances state cursor).onward.productions
    rw [turned] at kept
    rw [reads.turn innermost, turned]
    exact inductionHypothesis ((congrArg List.head? kept).trans innermost)
  | case2 state cursor last after turned =>
    rw [reads.turn innermost, turned]
    rfl

/-- In its production the loop reads what is read, and leaves the productions as they were. -/
theorem inside_eq (reads : loop.Reads production read) (state : State) (cursor : Cursor) :
    loop.inside production state cursor = read state cursor := by
  rw [inside, reads.run_eq rfl, reads.frames]
  exact Prod.ext rfl (Cursor.leave_enter _ _)

end Reads

end Loop

namespace Body

variable {file : String} {token label argument : Token} {rest : List Token} {keyword : Keyword}
  {second : String} {build : String → String → Entry Menu}
  (known : Production.menuBody.keyword? token = some keyword) (line : keyword.line = .pair second build)

include known line

/-- A line without a label is reported, and the body goes on where the label should stand. -/
theorem read_of_missing_label (refused : Production.menuBody.Refuses rest) :
    read file (token :: rest) =
      (read file rest).withProblem (.missingArgument file token.line "label" token.text) := by
  rw [read]
  simp only [known, line]
  cases rest with
  | nil => rfl
  | cons label afterLabel => exact if_neg (refused label rfl)

/-- A line without a second argument is reported, and the body goes on where that should stand. -/
theorem read_of_missing_second (plain : Production.menuBody.takesArgument label = true)
    (refused : Production.menuBody.Refuses rest) :
    read file (token :: label :: rest) =
      (read file rest).withProblem (.missingArgument file label.line second label.text) := by
  rw [read]
  simp only [known, line]
  cases rest with
  | nil => exact if_pos plain
  | cons argument afterArgument => exact (if_pos plain).trans (if_neg (refused argument rfl))

/-- A line with both arguments gives its entry. -/
theorem read_of_arguments (plain : Production.menuBody.takesArgument label = true)
    (alsoPlain : Production.menuBody.takesArgument argument = true) :
    read file (token :: label :: argument :: rest) =
      (read file rest).withEntry (build label.text argument.text) := by
  rw [read]
  simp only [known, line]
  exact (if_pos plain).trans (if_pos alsoPlain)

end Body

namespace Menu

/-- A turn in the body of a menu. -/
def turn (menu : Menu) (cursor : Cursor) : Turn Menu :=
  match cursor.next with
  | (.endOfInput, after) => .done menu after.reportEnd
  | (.unknown token, after) => .again menu (after.reportUnknown token)
  | (.keyword keyword token, after) =>
    match keyword.line with
    | .finish => .done menu after
    | .plain entry => .again (menu.add entry) after
    | .nothing => .again menu after
    | .pair second build =>
      match after.arguments? second token with
      | (some (label, argument), later) =>
        .again (menu.add (build label.text argument.text)) later
      | (none, later) => .again menu later

/-- A turn in a body leads onward. -/
theorem advances_turn (menu : Menu) (cursor : Cursor) : (menu.turn cursor).Advances cursor := by
  rw [turn]
  split
  · rename_i after lexed
    exact Turn.advances_done lexed (after.onward_report _) menu
  · rename_i token after lexed
    exact Turn.advances_again lexed (after.onward_report _) nofun menu
  · rename_i keyword token after lexed
    split
    · exact Turn.advances_done lexed (.refl after) menu
    · exact Turn.advances_again lexed (.refl after) nofun _
    · exact Turn.advances_again lexed (.refl after) nofun menu
    · split
      · rename_i found
        exact Turn.advances_again lexed (Cursor.onward_arguments? found) nofun _
      · rename_i missing
        exact Turn.advances_again lexed (Cursor.onward_arguments? missing) nofun menu

/-- The loop that reads the body of a menu. -/
def turns : Loop Menu := ⟨turn, advances_turn⟩

/-- Reads a body turn by turn, in its production and out of it again. -/
def readByTurns (menu : Menu) (cursor : Cursor) : Menu × Cursor :=
  turns.inside .menuBody menu cursor

variable {cursor : Cursor} {token : Token} {rest : List Token} {keyword : Keyword}

/-- A diagnostic at the beginning of a body is reported before the rest is read. -/
theorem read_of_withProblem {problem : Diagnostic}
    (first : Body.read cursor.file cursor.pending =
      (Body.read cursor.file rest).withProblem problem) (menu : Menu) :
    menu.read cursor = menu.read ((cursor.withPending rest).report problem) := by
  rw [read, read, first]
  simp [Body.withProblem, Cursor.withPending, Cursor.report]

/-- An entry at the beginning of a body is added before the rest is read. -/
theorem read_of_withEntry {entry : Entry Menu}
    (first : Body.read cursor.file cursor.pending = (Body.read cursor.file rest).withEntry entry)
    (menu : Menu) : menu.read cursor = (menu.add entry).read (cursor.withPending rest) := by
  rw [read, read, first]
  simp [Body.withEntry, Cursor.withPending, add, append]

/-- Behind the keyword of a line with two arguments, a turn takes these and goes on. -/
theorem read_of_pair {second : String} {build : String → String → Entry Menu}
    (innermost : cursor.productions.head? = some .menuBody) (ahead : cursor.pending = token :: rest)
    (known : Production.menuBody.keyword? token = some keyword)
    (line : keyword.line = .pair second build) (menu : Menu) :
    menu.read cursor =
      Turn.finish read
        (match (cursor.withPending rest).arguments? second token with
        | (some (label, argument), later) =>
          .again (menu.add (build label.text argument.text)) later
        | (none, later) => .again menu later) := by
  have innermostToo (pending : List Token) :
      (cursor.withPending pending).productions.head? = some .menuBody := innermost
  rw [Cursor.arguments?]
  rcases Production.menuBody.refuses_or_takes rest with refused | ⟨label, afterLabel, rfl, plain⟩
  · rw [Cursor.argument?_of_refused (innermostToo rest) refused]
    apply read_of_withProblem
    rw [ahead, Body.read_of_missing_label known line refused]
    rfl
  · rw [Cursor.argument?_of_plain (innermostToo _) rfl plain]
    dsimp only [Cursor.withPending_withPending]
    rcases Production.menuBody.refuses_or_takes afterLabel with
      refused | ⟨argument, afterArgument, rfl, alsoPlain⟩
    · rw [Cursor.argument?_of_refused (innermostToo afterLabel) refused]
      apply read_of_withProblem
      rw [ahead, Body.read_of_missing_second known line plain refused]
      rfl
    · rw [Cursor.argument?_of_plain (innermostToo _) rfl alsoPlain]
      apply read_of_withEntry
      rw [ahead, Body.read_of_arguments known line plain alsoPlain]

/-- The turns of a body are the beginnings of what is read of it. -/
theorem reads_turns : turns.Reads .menuBody read where
  frames menu cursor := rfl
  turn {menu cursor} innermost := by
    have named := Cursor.production_of_innermost innermost
    show menu.read cursor = (menu.turn cursor).finish read
    cases ahead : cursor.pending with
    | nil =>
      rw [turn, Cursor.next_of_end ahead, read, ahead, Body.read]
      simp [Turn.finish, Cursor.reportEnd, Cursor.report, named, ahead]
    | cons token rest =>
      cases known : Production.menuBody.keyword? token with
      | none =>
        have first : Body.read cursor.file cursor.pending =
            (Body.read cursor.file rest).withProblem
              (.unknownTag cursor.file token.line token.text Production.menuBody.name) := by
          rw [ahead, Body.read, known]
        rw [read_of_withProblem first, turn, Cursor.next_of_unknown innermost ahead known, ← named]
        rfl
      | some keyword =>
        rw [turn, Cursor.next_of_keyword innermost ahead known]
        dsimp only
        split
        · rename_i line
          rw [read, ahead, Body.read]
          simp [known, line, Turn.finish, Cursor.withPending]
        · rename_i entry line
          apply read_of_withEntry
          rw [ahead, Body.read]
          simp only [known, line]
        · rename_i line
          rw [read, ahead, Body.read]
          simp only [known, line]
          rfl
        · rename_i second build line
          exact read_of_pair innermost ahead known line menu

/-- Turn by turn a body is read as it is from its tokens, and the productions stand as they did. -/
theorem readByTurns_eq (menu : Menu) (cursor : Cursor) :
    menu.readByTurns cursor = menu.read cursor :=
  reads_turns.inside_eq menu cursor

end Menu

end Menus
