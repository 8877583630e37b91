import Menus.Proofs.Templates

/-!
# The pieces of a definition file

A definition file is a sequence of pieces: blocks of menus, blocks of toolbars, names of files to be
read in place, and tokens that are none of these. Its statements are those of its pieces, one piece
after another. Only names of files include anything, and only they can be reported as not included:
the statements of any other piece contribute entries or report problems of their own.
-/

namespace Menus

/-- A piece of a definition file. -/
inductive Piece where
  /-- A block of menus, with the tokens behind its keyword. -/
  | menuset (tokens : List Token)
  /-- A block of toolbars, with the tokens behind its keyword. -/
  | toolbars (tokens : List Token)
  /-- The name of a file to be read in place. -/
  | inclusion (name : String) (line : Nat)
  /-- A token that begins nothing, or whose argument is missing. -/
  | stray (problem : Diagnostic)

namespace Piece

/-- The pieces of a file. -/
def ofTokens (file : String) : List Token → List Piece
  | [] => []
  | token :: rest =>
    match Production.file.keyword? token with
    | some .menuset => .menuset rest :: ofTokens file (Passage.readMenuset file rest).rest
    | some .toolbarset => .toolbars rest :: ofTokens file (Passage.skipToolbarset file rest).rest
    | some .inclusion =>
      let missing := Diagnostic.missingArgument file token.line "file name" token.text
      match rest with
      | [] => [.stray missing]
      | name :: afterName =>
        if Production.file.takesArgument name then
          .inclusion name.text name.line :: ofTokens file afterName
        else .stray missing :: ofTokens file (name :: afterName)
    | _ =>
      .stray (.unknownTag file token.line token.text Production.file.name) :: ofTokens file rest
termination_by tokens => tokens.length
decreasing_by
  · exact Nat.lt_succ_of_le (Passage.readMenuset_rest_length file _)
  · exact Nat.lt_succ_of_le (Passage.skipToolbarset_rest_length file _)
  · exact Nat.lt_succ_of_lt (Nat.lt_succ_self _)
  · exact Nat.lt_succ_self _
  · exact Nat.lt_succ_self _

/-- The statements of a piece. -/
def statements (file : String) : Piece → List Statement
  | .menuset tokens => (Passage.readMenuset file tokens).statements
  | .toolbars tokens => (Passage.skipToolbarset file tokens).statements
  | .inclusion name line => [.inclusion name line]
  | .stray problem => [.problem problem]

end Piece

/-- The statements of a file are those of its pieces. -/
theorem Statement.readFile_eq (file : String) (tokens : List Token) :
    readFile file tokens = (Piece.ofTokens file tokens).flatMap (Piece.statements file) := by
  fun_induction readFile file tokens with
  | case1 => rw [Piece.ofTokens, List.flatMap_nil]
  | case2 token rest begins block inductionHypothesis =>
    rw [Piece.ofTokens, begins, inductionHypothesis]
    rfl
  | case3 token rest begins block inductionHypothesis =>
    rw [Piece.ofTokens, begins, inductionHypothesis]
    rfl
  | case4 token begins missing =>
    rw [Piece.ofTokens, begins]
    rfl
  | case5 token begins name afterName argument inductionHypothesis =>
    rw [Piece.ofTokens, begins]
    simp only [if_pos argument]
    rw [inductionHypothesis]
    rfl
  | case6 token begins missing name afterName keyword inductionHypothesis =>
    rw [Piece.ofTokens, begins]
    simp only [if_neg keyword]
    rw [inductionHypothesis]
    rfl
  | case7 token rest noMenuset noToolbarset noInclusion inductionHypothesis =>
    rw [Piece.ofTokens]
    split
    · exact absurd ‹_› noMenuset
    · exact absurd ‹_› noToolbarset
    · exact absurd ‹_› noInclusion
    · rw [inductionHypothesis]
      rfl

/-- The diagnostic says that a file could not be included. -/
def Diagnostic.isInclusion : Diagnostic → Bool
  | inclusionFailed .. => true
  | _ => false

/-- The statement includes no file and reports none as not included. -/
def Statement.Plain : Statement → Prop
  | .contribute _ => True
  | .inclusion .. => False
  | .problem reported => reported.isInclusion = false

/-- A plain statement includes nothing. -/
theorem Statement.Plain.ne_inclusion {statement : Statement} (plain : statement.Plain)
    (name : String) (line : Nat) : statement ≠ .inclusion name line := by
  rintro rfl
  exact plain

/-- No problem with a body is about an inclusion. -/
theorem Body.isInclusion_read (file : String) (tokens : List Token) :
    ∀ problem ∈ (Body.read file tokens).problems, problem.isInclusion = false := by
  fun_induction Body.read file tokens with
  | case1 => exact List.forall_mem_singleton.mpr rfl
  | case3 => exact fun _ member => absurd member List.not_mem_nil
  | case4 | case5 | case8 => assumption
  | case2 | case6 | case7 | case9 | case10 => exact List.forall_mem_cons.mpr ⟨rfl, by assumption⟩

namespace Statement

/-- No problem of plain statements is about an inclusion. -/
theorem filter_problems_of_plain {statements : List Statement}
    (plain : ∀ statement ∈ statements, statement.Plain) :
    (problems statements).filter Diagnostic.isInclusion = [] := by
  rw [List.filter_eq_nil_iff]
  intro reported member
  obtain ⟨statement, among, reports⟩ := List.mem_filterMap.mp member
  cases statement with
  | problem =>
    cases reports
    exact Bool.eq_false_iff.mp (plain _ among)
  | contribute | inclusion => cases reports

theorem plain_ofBody (menu : Option String) (file : String) (tokens : List Token) :
    ∀ statement ∈ ofBody menu (Body.read file tokens), statement.Plain := by
  refine List.forall_mem_cons.mpr ⟨trivial, fun statement member => ?_⟩
  obtain ⟨problem, among, rfl⟩ := List.mem_map.mp member
  exact Body.isInclusion_read file tokens problem among

end Statement

namespace Passage

/-- A block of menus includes nothing. -/
theorem plain_readMenuset (file : String) (tokens : List Token) :
    ∀ statement ∈ (readMenuset file tokens).statements, statement.Plain := by
  fun_induction readMenuset file tokens with
  | case1 => exact List.forall_mem_singleton.mpr rfl
  | case2 => exact fun _ member => absurd member List.not_mem_nil
  | case3 | case5 =>
    exact List.forall_mem_append.mpr ⟨Statement.plain_ofBody _ _ _, by assumption⟩
  | case4 | case6 | case7 => exact List.forall_mem_cons.mpr ⟨rfl, by assumption⟩

/-- A toolbar contributes nothing and includes nothing. -/
theorem plain_skipToolbar (file : String) (tokens : List Token) :
    Statement.contributions (skipToolbar file tokens).statements = [] ∧
      ∀ statement ∈ (skipToolbar file tokens).statements, statement.Plain := by
  fun_induction skipToolbar file tokens with
  | case1 => exact ⟨rfl, List.forall_mem_singleton.mpr rfl⟩
  | case2 => exact ⟨rfl, fun _ member => absurd member List.not_mem_nil⟩
  | case3 => assumption

/-- A block of toolbars contributes nothing and includes nothing. -/
theorem plain_skipToolbarset (file : String) (tokens : List Token) :
    Statement.contributions (skipToolbarset file tokens).statements = [] ∧
      ∀ statement ∈ (skipToolbarset file tokens).statements, statement.Plain := by
  fun_induction skipToolbarset file tokens with
  | case1 => exact ⟨rfl, List.forall_mem_singleton.mpr rfl⟩
  | case2 => exact ⟨rfl, fun _ member => absurd member List.not_mem_nil⟩
  | case3 token rest _ toolbar inductionHypothesis =>
    obtain ⟨nothing, plain⟩ := plain_skipToolbar file rest
    constructor
    · rw [after, Statement.contributions, List.filterMap_append]
      exact List.append_eq_nil_iff.mpr ⟨nothing, inductionHypothesis.1⟩
    · exact List.forall_mem_append.mpr ⟨plain, inductionHypothesis.2⟩
  | case4 => assumption

end Passage

/-- What a piece that names no file says includes nothing. -/
theorem Piece.plain_of_not_inclusion (file : String) (tokens : List Token) :
    ∀ piece ∈ Piece.ofTokens file tokens, (∀ name line, piece ≠ .inclusion name line) →
      ∀ statement ∈ piece.statements file, statement.Plain := by
  fun_induction Piece.ofTokens file tokens with
  | case1 => exact fun _ member => absurd member List.not_mem_nil
  | case2 token rest =>
    exact List.forall_mem_cons.mpr
      ⟨fun _ => Passage.plain_readMenuset file rest, by assumption⟩
  | case3 token rest =>
    exact List.forall_mem_cons.mpr
      ⟨fun _ => (Passage.plain_skipToolbarset file rest).2, by assumption⟩
  | case4 => exact List.forall_mem_singleton.mpr fun _ => List.forall_mem_singleton.mpr rfl
  | case5 => exact List.forall_mem_cons.mpr ⟨fun other => absurd rfl (other _ _), by assumption⟩
  | case6 | case7 =>
    exact List.forall_mem_cons.mpr ⟨fun _ => List.forall_mem_singleton.mpr rfl, by assumption⟩

end Menus
