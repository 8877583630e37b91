import Menus.Definition.Body

/-!
# Blocks of menus

A `menuset` block gives entries to the menubar and to named menus. What it gives is read first, as a
list of contributions in the order of the text, and added to a registry afterwards: the text alone
decides what is contributed, whatever the registry already holds.

A definition file may also hold blocks of toolbars, whose words are passed over, and names of other
files to be read in place.
-/

namespace Menus

/-- Entries given to one menu: to a named one, or to the menubar when there is no name. A menu can
be given no entries; it is then declared all the same. -/
structure Contribution where
  menu : Option String
  entries : List (Entry Menu)

/-- What a definition file says, one piece at a time. -/
inductive Statement where
  /-- Entries for a menu. -/
  | contribute (contribution : Contribution)
  /-- Another file, to be read in place. -/
  | inclusion (name : String) (line : Nat)
  /-- A problem found at this place. -/
  | problem (diagnostic : Diagnostic)

namespace Statement

/-- The contribution of a statement that makes one. -/
def contribution? : Statement → Option Contribution
  | contribute contribution => some contribution
  | _ => none

/-- The problem of a statement that reports one. -/
def problem? : Statement → Option Diagnostic
  | problem diagnostic => some diagnostic
  | _ => none

/-- The statements of a body read for a menu. -/
def ofBody (menu : Option String) (body : Body) : List Statement :=
  .contribute ⟨menu, body.entries⟩ :: body.problems.map .problem

end Statement

/-- Statements read, and the tokens behind them. -/
structure Passage where
  statements : List Statement := []
  rest : List Token := []

namespace Passage

/-- Puts statements in front. -/
def after (statements : List Statement) (passage : Passage) : Passage :=
  { passage with statements := statements ++ passage.statements }

@[simp] theorem rest_after (statements : List Statement) (passage : Passage) :
    (passage.after statements).rest = passage.rest := rfl

/-- Reads a block of menus up to its `end`. -/
def readMenuset (file : String) : List Token → Passage
  | [] => { statements := [.problem (.unexpectedEnd file Production.menuset.name)] }
  | token :: rest =>
    match Production.menuset.keyword? token with
    | some .close => { rest }
    | some .menubar =>
      let body := Body.read file rest
      (readMenuset file body.rest).after (Statement.ofBody none body)
    | some .menu =>
      let missing := Diagnostic.missingArgument file token.line "menu name" token.text
      match rest with
      | [] => (readMenuset file []).after [.problem missing]
      | name :: afterName =>
        if Production.menuset.takesArgument name then
          let body := Body.read file afterName
          (readMenuset file body.rest).after (Statement.ofBody (some name.text) body)
        else (readMenuset file (name :: afterName)).after [.problem missing]
    | _ =>
      (readMenuset file rest).after
        [.problem (.unknownTag file token.line token.text Production.menuset.name)]
termination_by tokens => tokens.length
decreasing_by
  · exact Nat.lt_succ_of_le (Body.read_rest_length file _)
  · exact Nat.lt_succ_self _
  · exact Nat.lt_succ_of_le (Nat.le_succ_of_le (Body.read_rest_length file _))
  · exact Nat.lt_succ_self _
  · exact Nat.lt_succ_self _

/-- A block takes nothing but what stands in front of its rest. -/
theorem readMenuset_rest_length (file : String) (tokens : List Token) :
    (readMenuset file tokens).rest.length ≤ tokens.length := by
  have inBody := Body.read_rest_length file
  fun_induction readMenuset file tokens with
  | case1 => simp
  | case2 => simp
  | case3 token rest _ body inductionHypothesis =>
    have shorter : body.rest.length ≤ rest.length := inBody rest
    simp only [rest_after, List.length_cons]
    omega
  | case4 | case6 | case7 => simp_all <;> omega
  | case5 token _ name afterName _ body inductionHypothesis =>
    have shorter : body.rest.length ≤ afterName.length := inBody afterName
    simp only [rest_after, List.length_cons]
    omega

/-- Passes over a toolbar up to its `end`. -/
def skipToolbar (file : String) : List Token → Passage
  | [] => { statements := [.problem (.unexpectedEnd file Production.toolbar.name)] }
  | token :: rest =>
    match Production.toolbar.keyword? token with
    | some .close => { rest }
    | _ => skipToolbar file rest

/-- A toolbar takes nothing but what stands in front of its rest. -/
theorem skipToolbar_rest_length (file : String) (tokens : List Token) :
    (skipToolbar file tokens).rest.length ≤ tokens.length := by
  fun_induction skipToolbar file tokens with
  | case1 | case2 => simp
  | case3 => simp_all; omega

/-- Passes over a block of toolbars up to its `end`. Whatever words it holds, only the end of the
input is reported; a quote in it that nothing closes is reported with the tokens. -/
def skipToolbarset (file : String) : List Token → Passage
  | [] => { statements := [.problem (.unexpectedEnd file Production.toolbarset.name)] }
  | token :: rest =>
    match Production.toolbarset.keyword? token with
    | some .close => { rest }
    | some .toolbar =>
      let toolbar := skipToolbar file rest
      (skipToolbarset file toolbar.rest).after toolbar.statements
    | _ => skipToolbarset file rest
termination_by tokens => tokens.length
decreasing_by
  · exact Nat.lt_succ_of_le (skipToolbar_rest_length file _)
  · exact Nat.lt_succ_self _

/-- A block of toolbars takes nothing but what stands in front of its rest. -/
theorem skipToolbarset_rest_length (file : String) (tokens : List Token) :
    (skipToolbarset file tokens).rest.length ≤ tokens.length := by
  have inToolbar := skipToolbar_rest_length file
  fun_induction skipToolbarset file tokens with
  | case1 => simp
  | case2 => simp
  | case3 token rest _ toolbar inductionHypothesis =>
    have shorter : toolbar.rest.length ≤ rest.length := inToolbar rest
    simp only [rest_after, List.length_cons]
    omega
  | case4 => simp_all; omega

end Passage

namespace Statement

/-- Reads a definition text that stands alone: blocks of menus and nothing else. -/
def readDefinition (file : String) : List Token → List Statement
  | [] => []
  | token :: rest =>
    match Production.definition.keyword? token with
    | some .menuset =>
      let block := Passage.readMenuset file rest
      block.statements ++ readDefinition file block.rest
    | _ =>
      .problem (.unknownTag file token.line token.text Production.definition.name) ::
        readDefinition file rest
termination_by tokens => tokens.length
decreasing_by
  · exact Nat.lt_succ_of_le (Passage.readMenuset_rest_length file _)
  · exact Nat.lt_succ_self _

/-- Reads a definition file: blocks of menus, blocks of toolbars and the names of files to be read
in place. -/
def readFile (file : String) : List Token → List Statement
  | [] => []
  | token :: rest =>
    match Production.file.keyword? token with
    | some .menuset =>
      let block := Passage.readMenuset file rest
      block.statements ++ readFile file block.rest
    | some .toolbarset =>
      let block := Passage.skipToolbarset file rest
      block.statements ++ readFile file block.rest
    | some .inclusion =>
      let missing := Diagnostic.missingArgument file token.line "file name" token.text
      match rest with
      | [] => [.problem missing]
      | name :: afterName =>
        if Production.file.takesArgument name then
          .inclusion name.text name.line :: readFile file afterName
        else .problem missing :: readFile file (name :: afterName)
    | _ =>
      .problem (.unknownTag file token.line token.text Production.file.name) :: readFile file rest
termination_by tokens => tokens.length
decreasing_by
  · exact Nat.lt_succ_of_le (Passage.readMenuset_rest_length file _)
  · exact Nat.lt_succ_of_le (Passage.skipToolbarset_rest_length file _)
  · exact Nat.lt_succ_of_lt (Nat.lt_succ_self _)
  · exact Nat.lt_succ_self _
  · exact Nat.lt_succ_self _

/-- The diagnostics among the statements. -/
def problems (statements : List Statement) : List Diagnostic :=
  statements.filterMap problem?

/-- The contributions among the statements. -/
def contributions (statements : List Statement) : List Contribution :=
  statements.filterMap contribution?

end Statement

end Menus
