import Menus.Proofs.Grammar
import Menus.Proofs.Readings
import Menus.Proofs.Segments
import Menus.Proofs.Updates

/-!
# Blocks of toolbars

A definition file can hold blocks of toolbars, which have no menus in them. Reading passes over such a
block: over any words up to an `end`, where the `end` of a toolbar inside the block belongs to that
toolbar. What the file says besides is what it would say without the tokens of these blocks.

That a block of menus is read in the same way whatever stands behind it carries the proof: the tokens
behind it can be exchanged. And no statement depends on the lines of the tokens, only what is reported
of them.
-/

namespace Menus

namespace Production

theorem distinct_file : file.Distinct := by decide +kernel

theorem distinct_toolbarset : toolbarset.Distinct := by decide +kernel

theorem distinct_toolbar : toolbar.Distinct := by decide +kernel

end Production

/-! ## Passing over toolbars -/

/-- The tokens of a block of toolbars behind its keyword: any words but `end` and `toolbar`, toolbars of
any words up to an `end` of their own, and the `end` of the block. A quoted word is neither. -/
inductive ToolbarBlock : List Token → Prop where
  | close {last : Token} (ends : last.Spells "end") : ToolbarBlock [last]
  | word {token : Token} {rest : List Token} (goesOn : ¬token.Spells "end")
      (noToolbar : ¬token.Spells "toolbar") (onward : ToolbarBlock rest) : ToolbarBlock (token :: rest)
  | toolbar {opening last : Token} {words rest : List Token} (opens : opening.Spells "toolbar")
      (inside : ∀ token ∈ words, ¬token.Spells "end") (ends : last.Spells "end")
      (onward : ToolbarBlock rest) : ToolbarBlock (opening :: (words ++ last :: rest))

/-- No unclosed text spells a keyword. -/
theorem Token.isUnclosed_of_spells {token : Token} {word : String} (spells : token.Spells word) :
    token.isUnclosed = false := by
  have bare : token.form = .bare := by simpa [Token.isQuoted] using spells.1
  rw [Token.isUnclosed, bare]
  rfl

/-- A block of toolbars ends with an `end`. -/
theorem ToolbarBlock.exists_last {block : List Token} (isBlock : ToolbarBlock block) :
    ∃ words last, block = words ++ [last] ∧ last.Spells "end" := by
  induction isBlock with
  | @close last ends => exact ⟨[], last, rfl, ends⟩
  | @word token rest goesOn noToolbar onward inductionHypothesis =>
    obtain ⟨words, last, rfl, ends⟩ := inductionHypothesis
    exact ⟨token :: words, last, rfl, ends⟩
  | @toolbar opening closing inToolbar rest opens inside closes onward inductionHypothesis =>
    obtain ⟨words, last, rfl, ends⟩ := inductionHypothesis
    exact ⟨opening :: (inToolbar ++ closing :: words), last, by simp, ends⟩

namespace Passage

/-- A toolbar is passed over up to its `end`. -/
theorem skipToolbar_append {words : List Token} {last : Token}
    (inside : ∀ token ∈ words, ¬token.Spells "end") (ends : last.Spells "end") (file : String)
    (rest : List Token) : skipToolbar file (words ++ last :: rest) = { rest } := by
  have known (token : Token) :
      Production.toolbar.keyword? token = some .close ↔ token.Spells "end" := by
    rw [Production.keyword?_eq_some_iff Production.distinct_toolbar]
    simp [Production.toolbar]
  induction words with
  | nil => rw [List.nil_append, skipToolbar, (known last).mpr ends]
  | cons token words inductionHypothesis =>
    obtain ⟨goesOn, others⟩ := List.forall_mem_cons.mp inside
    rw [← known] at goesOn
    rw [List.cons_append, skipToolbar]
    split
    · exact absurd ‹_› goesOn
    · exact inductionHypothesis others

/-- A block of toolbars is passed over up to its `end`, and nothing is reported. -/
theorem skipToolbarset_append {block : List Token} (isBlock : ToolbarBlock block) (file : String)
    (rest : List Token) : skipToolbarset file (block ++ rest) = { rest } := by
  have known {token : Token} {keyword : Keyword} :
      Production.toolbarset.keyword? token = some keyword ↔
        ∃ word, (word, keyword) ∈ Production.toolbarset.keywords ∧ token.Spells word :=
    Production.keyword?_eq_some_iff Production.distinct_toolbarset
  induction isBlock with
  | @close last ends =>
    have closes : Production.toolbarset.keyword? last = some .close :=
      known.mpr ⟨"end", by decide, ends⟩
    rw [List.singleton_append, skipToolbarset, closes]
  | @word token others goesOn noToolbar onward inductionHypothesis =>
    have noClose : Production.toolbarset.keyword? token ≠ some .close := by
      rw [Ne, known]
      simpa [Production.toolbarset] using goesOn
    have noOpening : Production.toolbarset.keyword? token ≠ some .toolbar := by
      rw [Ne, known]
      simpa [Production.toolbarset] using noToolbar
    rw [List.cons_append, skipToolbarset]
    split
    · exact absurd ‹_› noClose
    · exact absurd ‹_› noOpening
    · exact inductionHypothesis
  | @toolbar opening last words others opens inside ends onward inductionHypothesis =>
    have begins : Production.toolbarset.keyword? opening = some .toolbar :=
      known.mpr ⟨"toolbar", by decide, opens⟩
    have passed := skipToolbar_append inside ends file (others ++ rest)
    have parts : opening :: (words ++ last :: others) ++ rest =
        opening :: (words ++ last :: (others ++ rest)) := by simp
    rw [parts, skipToolbarset, begins]
    simp only [passed, inductionHypothesis]
    rfl

end Passage

/-! ## Exchanging what stands behind a block of menus -/

namespace Body

/-- What stands behind the `end` of a body is left as it is, and nothing of the body depends on it. -/
theorem read_append_end {front : List Token} {last : Token}
    (inFront : ∀ token ∈ front, ¬token.Spells "end") (ends : last.Spells "end") (file : String)
    (rest : List Token) :
    read file (front ++ last :: rest) = { read file (front ++ [last]) with rest } := by
  have passes : ∀ token ∈ front, (!decide (token.Spells "end")) = true := by
    simpa using inFront
  have insideOf (rest : List Token) : inside (front ++ last :: rest) = front := by
    rw [inside, List.takeWhile_append_of_pos passes]
    simp [ends]
  have behindOf : behind (front ++ last :: rest) = rest := by
    rw [behind, List.dropWhile_append_of_pos passes]
    simp [ends]
  have closed (rest : List Token) : unclosed file (front ++ last :: rest) = [] := by
    rw [unclosed, if_pos]
    exact ⟨last, List.mem_append_right front List.mem_cons_self, ends⟩
  rw [read_eq_ofSegments, read_eq_ofSegments, ofSegments, ofSegments, pieces, pieces, insideOf,
    insideOf, closed, closed, behindOf]

/-- Nothing is left behind a body, or the body has an `end`. -/
theorem rest_eq_nil_or_exists_end (file : String) (tokens : List Token) :
    (read file tokens).rest = [] ∨
      ∃ front last, (∀ token ∈ front, ¬token.Spells "end") ∧ last.Spells "end" ∧
        tokens = front ++ last :: (read file tokens).rest := by
  have left : (read file tokens).rest = behind tokens := by rw [read_eq_ofSegments, ofSegments]
  rw [left]
  cases found : tokens.dropWhile fun token => !decide (token.Spells "end") with
  | nil =>
    left
    rw [behind, found]
    rfl
  | cons last rest =>
    right
    refine ⟨inside tokens, last, ?_, ?_, ?_⟩
    · intro token member
      simpa using List.all_eq_true.mp List.all_takeWhile token member
    · have stopped := List.head?_dropWhile_not (fun token => !decide (token.Spells "end")) tokens
      rw [found] at stopped
      simpa using stopped
    · rw [behind, found, inside, List.tail_cons, ← found, List.takeWhile_append_dropWhile]

end Body

namespace Passage

/-- A reader leaves nothing of the tokens, or it has taken some and takes them just so in front of any
other tokens. -/
def TakesAhead (reader : List Token → Passage) (tokens : List Token) : Prop :=
  (reader tokens).rest = [] ∨
    ∃ taken, taken ≠ [] ∧ tokens = taken ++ (reader tokens).rest ∧
      ∀ rest, reader (taken ++ rest) = { reader tokens with rest }

/-- Reads the body of a menu and goes on with the block of menus. -/
def readBody (file : String) (menu : Option String) (tokens : List Token) : Passage :=
  (readMenuset file (Body.read file tokens).rest).after
    (Statement.ofBody menu (Body.read file tokens))

variable {file : String} {tokens : List Token}

/-- Tokens stand in front of what a reader takes, if it goes on behind them whatever stands there, apart
from the first token. -/
theorem TakesAhead.behind {reader onward : List Token → Passage} {lead : List Token}
    (statements : List Statement) (ahead : TakesAhead onward tokens) (leads : lead ≠ [])
    (goesOn : ∀ other, other.head? = tokens.head? →
      reader (lead ++ other) = (onward other).after statements) :
    TakesAhead reader (lead ++ tokens) := by
  rw [TakesAhead, goesOn tokens rfl, rest_after]
  obtain none | ⟨taken, takes, whole, exchange⟩ := ahead
  · exact .inl none
  · refine .inr ⟨lead ++ taken, List.append_ne_nil_of_left_ne_nil leads taken, ?_, ?_⟩
    · rw [List.append_assoc, ← whole]
    · intro rest
      have begins : (taken ++ rest).head? = tokens.head? := by
        obtain ⟨first, others, rfl⟩ := List.exists_cons_of_ne_nil takes
        rw [whole]
        rfl
      rw [List.append_assoc, goesOn _ begins, exchange]
      rfl

/-- A block of menus is taken ahead behind a body if it is behind the `end` of the body. -/
theorem takesAhead_readBody (menu : Option String)
    (ahead : TakesAhead (readMenuset file) (Body.read file tokens).rest) :
    TakesAhead (readBody file menu) tokens := by
  have left : (readBody file menu tokens).rest =
      (readMenuset file (Body.read file tokens).rest).rest := rest_after _ _
  obtain none | ⟨front, last, inFront, ends, whole⟩ := Body.rest_eq_nil_or_exists_end file tokens
  · left
    rw [left, none, readMenuset]
  · obtain none | ⟨taken, takes, rest, exchange⟩ := ahead
    · exact .inl (left.trans none)
    · refine .inr ⟨front ++ last :: taken, by simp, ?_, ?_⟩
      · rw [left, List.append_assoc, List.cons_append, ← rest]
        exact whole
      · intro other
        have inBody := Body.read_append_end inFront ends file
        have here := inBody (Body.read file tokens).rest
        rw [← whole] at here
        rw [readBody, readBody, List.append_assoc, List.cons_append, inBody, exchange, here]
        rfl

/-- Nothing is left behind a block of menus, or the block is read just so in front of other tokens.

Proof: by induction on the reading. A body that has no `end` leaves nothing, and one that has is read
in front of other tokens as it is here. -/
theorem takesAhead_readMenuset (file : String) (tokens : List Token) :
    TakesAhead (readMenuset file) tokens := by
  have nothing : (readMenuset file []).rest = [] := by rw [readMenuset]
  fun_induction readMenuset file tokens with
  | case1 => exact .inl nothing
  | case2 token rest closes =>
    have closed (other : List Token) : readMenuset file (token :: other) = { rest := other } := by
      rw [readMenuset, closes]
    refine .inr ⟨[token], List.cons_ne_nil token [], ?_, fun other => ?_⟩
    · rw [closed, List.singleton_append]
    · rw [List.singleton_append, closed, closed]
  | case3 token rest opens body inductionHypothesis =>
    have goesOn (other : List Token) : readMenuset file ([token] ++ other) =
        (readBody file none other).after [] := by
      rw [List.singleton_append, readMenuset, opens]
      rfl
    exact (takesAhead_readBody none inductionHypothesis).behind [] (List.cons_ne_nil token [])
      fun other _ => goesOn other
  | case4 token opens missing =>
    left
    rw [readMenuset, opens]
    exact nothing
  | case5 token opens name afterName argument body inductionHypothesis =>
    have goesOn (other : List Token) : readMenuset file ([token, name] ++ other) =
        (readBody file (some name.text) other).after [] := by
      rw [List.cons_append, List.singleton_append, readMenuset, opens]
      simp only [if_pos argument]
      rfl
    exact (takesAhead_readBody (some name.text) inductionHypothesis).behind []
      (List.cons_ne_nil token [name]) fun other _ => goesOn other
  | case6 token opens missing name afterName keyword inductionHypothesis =>
    refine inductionHypothesis.behind [.problem missing] (List.cons_ne_nil token [])
      fun other begins => ?_
    cases other with
    | nil => cases begins
    | cons first others =>
      cases Option.some.inj begins
      rw [List.singleton_append, readMenuset, opens]
      simp only [if_neg keyword]
      rfl
  | case7 token rest noClose noMenubar noMenu inductionHypothesis =>
    refine inductionHypothesis.behind
      [.problem (.unknownTag file token.line token.text Production.menuset.name)]
      (List.cons_ne_nil token []) fun other _ => ?_
    rw [List.singleton_append, readMenuset]
    split
    · exact absurd ‹_› noClose
    · exact absurd ‹_› noMenubar
    · exact absurd ‹_› noMenu
    · rfl

/-- What stands behind a block of menus can be exchanged, if there is something. -/
theorem readMenuset_exchange {taken rest other : List Token}
    (taking : (readMenuset file (taken ++ rest)).rest = rest) (nothing : rest = [] → other = []) :
    readMenuset file (taken ++ other) = { readMenuset file (taken ++ rest) with rest := other } := by
  obtain none | ⟨ahead, -, whole, exchange⟩ := takesAhead_readMenuset file (taken ++ rest)
  · rw [taking] at none
    rw [nothing none]
    exact none ▸ congrArg (Passage.mk _) taking
  · rw [taking, List.append_left_inj] at whole
    rw [whole]
    exact whole ▸ exchange other

end Passage

/-! ## What the lines of tokens have no part in -/

/-- The token without the line on which it stands. -/
def Token.unplaced (token : Token) : Token := { token with line := 0 }

/-- A keyword is one on any line. -/
@[simp] theorem Production.keyword?_unplaced (production : Production) (token : Token) :
    production.keyword? token.unplaced = production.keyword? token := rfl

@[simp] theorem Production.takesArgument_unplaced (production : Production) (token : Token) :
    production.takesArgument token.unplaced = production.takesArgument token := rfl

/-- The entries of a body do not depend on lines. -/
theorem Body.read_unplaced (file : String) (tokens : List Token) :
    (read file (tokens.map Token.unplaced)).entries = (read file tokens).entries ∧
      (read file (tokens.map Token.unplaced)).rest =
        (read file tokens).rest.map Token.unplaced := by
  fun_induction read file tokens with
  | case1 => simp [read]
  | case2 token rest unknown inductionHypothesis =>
    rw [List.map_cons, read, Production.keyword?_unplaced, unknown]
    exact inductionHypothesis
  | case3 token rest keyword known finishes =>
    rw [List.map_cons, read, Production.keyword?_unplaced, known]
    simp [finishes]
  | case4 token rest keyword known entry line inductionHypothesis =>
    rw [List.map_cons, read, Production.keyword?_unplaced, known]
    simp only [line]
    exact ⟨congrArg (entry :: ·) inductionHypothesis.1, inductionHypothesis.2⟩
  | case5 token rest keyword known line inductionHypothesis =>
    rw [List.map_cons, read, Production.keyword?_unplaced, known]
    simp only [line]
    exact inductionHypothesis
  | case6 token keyword known second build line inductionHypothesis =>
    rw [List.map_cons, List.map_nil, read.eq_2, Production.keyword?_unplaced, known]
    simp only [line]
    exact ⟨rfl, rfl⟩
  | case7 token keyword known second build line label plainLabel inductionHypothesis =>
    rw [List.map_cons, List.map_cons, List.map_nil, read.eq_2, Production.keyword?_unplaced, known]
    simp only [line, Production.takesArgument_unplaced, plainLabel, ↓reduceIte]
    exact ⟨rfl, rfl⟩
  | case8 token keyword known second build line label plainLabel argument rest plainArgument
      inductionHypothesis =>
    rw [List.map_cons, read, Production.keyword?_unplaced, known]
    simp only [line, List.map_cons, Production.takesArgument_unplaced, plainLabel, plainArgument,
      ↓reduceIte]
    exact ⟨congrArg (build label.text argument.text :: ·) inductionHypothesis.1,
      inductionHypothesis.2⟩
  | case9 token keyword known second build line label plainLabel argument rest isKeyword
      inductionHypothesis =>
    rw [List.map_cons, read, Production.keyword?_unplaced, known]
    simp only [line, List.map_cons, Production.takesArgument_unplaced, plainLabel, isKeyword,
      ↓reduceIte]
    exact inductionHypothesis
  | case10 token keyword known second build line label rest isKeyword inductionHypothesis =>
    rw [List.map_cons, read, Production.keyword?_unplaced, known]
    simp only [line, List.map_cons, Production.takesArgument_unplaced, isKeyword]
    exact inductionHypothesis

namespace Passage

/-- What a block of menus contributes does not depend on lines. -/
theorem readMenuset_unplaced (file : String) (tokens : List Token) :
    Statement.contributions (readMenuset file (tokens.map Token.unplaced)).statements =
        Statement.contributions (readMenuset file tokens).statements ∧
      (readMenuset file (tokens.map Token.unplaced)).rest =
        (readMenuset file tokens).rest.map Token.unplaced := by
  fun_induction readMenuset file tokens with
  | case1 =>
    rw [List.map_nil, readMenuset]
    exact ⟨rfl, rfl⟩
  | case2 token rest closes =>
    rw [List.map_cons, readMenuset, Production.keyword?_unplaced, closes]
    exact ⟨rfl, rfl⟩
  | case3 token rest opens body inductionHypothesis =>
    obtain ⟨entries, left⟩ := Body.read_unplaced file rest
    rw [List.map_cons, readMenuset, Production.keyword?_unplaced, opens]
    simp only [left, after, Statement.contributions_append, Statement.contributions_ofBody, entries]
    exact ⟨congrArg _ inductionHypothesis.1, inductionHypothesis.2⟩
  | case4 token opens missing =>
    rw [List.map_cons, List.map_nil, readMenuset.eq_2, Production.keyword?_unplaced, opens,
      readMenuset]
    exact ⟨rfl, rfl⟩
  | case5 token opens name afterName argument body inductionHypothesis =>
    obtain ⟨entries, left⟩ := Body.read_unplaced file afterName
    rw [List.map_cons, readMenuset, Production.keyword?_unplaced, opens]
    simp only [List.map_cons, Production.takesArgument_unplaced, argument, ↓reduceIte, left, after,
      Statement.contributions_append, Statement.contributions_ofBody, entries]
    exact ⟨congrArg _ inductionHypothesis.1, inductionHypothesis.2⟩
  | case6 token opens missing name afterName keyword inductionHypothesis =>
    rw [List.map_cons, readMenuset, Production.keyword?_unplaced, opens]
    simp only [List.map_cons, Production.takesArgument_unplaced, keyword]
    exact inductionHypothesis
  | case7 token rest noClose noMenubar noMenu inductionHypothesis =>
    rw [List.map_cons, readMenuset, Production.keyword?_unplaced]
    split
    · exact absurd ‹_› noClose
    · exact absurd ‹_› noMenubar
    · exact absurd ‹_› noMenu
    · exact inductionHypothesis

/-- A toolbar is passed over on any lines. -/
theorem rest_skipToolbar_unplaced (file : String) (tokens : List Token) :
    (skipToolbar file (tokens.map Token.unplaced)).rest =
      (skipToolbar file tokens).rest.map Token.unplaced := by
  induction tokens with
  | nil => rfl
  | cons token rest inductionHypothesis =>
    rw [List.map_cons, skipToolbar, skipToolbar, Production.keyword?_unplaced]
    split
    · rfl
    · exact inductionHypothesis

/-- A block of toolbars is passed over on any lines. -/
theorem rest_skipToolbarset_unplaced (file : String) (tokens : List Token) :
    (skipToolbarset file (tokens.map Token.unplaced)).rest =
      (skipToolbarset file tokens).rest.map Token.unplaced := by
  fun_induction skipToolbarset file tokens with
  | case1 => simp [skipToolbarset]
  | case2 token rest closes =>
    rw [List.map_cons, skipToolbarset, Production.keyword?_unplaced, closes]
  | case3 token rest opens toolbar inductionHypothesis =>
    rw [List.map_cons, skipToolbarset, Production.keyword?_unplaced, opens]
    simp only [rest_after, rest_skipToolbar_unplaced]
    exact inductionHypothesis
  | case4 token rest noClose noToolbar inductionHypothesis =>
    rw [List.map_cons, skipToolbarset, Production.keyword?_unplaced]
    split
    · exact absurd ‹_› noClose
    · exact absurd ‹_› noToolbar
    · exact inductionHypothesis

end Passage

/-- What a text that stands alone contributes does not depend on lines. -/
theorem Statement.contributions_readDefinition_unplaced (file : String) (tokens : List Token) :
    contributions (readDefinition file (tokens.map Token.unplaced)) =
      contributions (readDefinition file tokens) := by
  fun_induction readDefinition file tokens with
  | case1 => simp [readDefinition]
  | case2 token rest opens block inductionHypothesis =>
    obtain ⟨contributed, left⟩ := Passage.readMenuset_unplaced file rest
    rw [List.map_cons, readDefinition, Production.keyword?_unplaced, opens]
    simp only [left, contributions_append, contributed]
    exact congrArg _ inductionHypothesis
  | case3 token rest noMenuset inductionHypothesis =>
    rw [List.map_cons, readDefinition, Production.keyword?_unplaced]
    split
    · exact absurd ‹_› noMenuset
    · exact inductionHypothesis

/-! ## The top level of a file -/

/-- The tokens of a definition file that includes no other file at its top level, and in which every
block of toolbars that begins there is closed; with them the tokens outside these blocks, and those in
them. What stands in a block of menus is not at the top level. -/
inductive TopLevel (file : String) : List Token → List Token → List Token → Prop where
  | finished : TopLevel file [] [] []
  | menuset {token : Token} {taken rest outside inside : List Token} (opens : token.Spells "menuset")
      (taking : (Passage.readMenuset file (taken ++ rest)).rest = rest)
      (onward : TopLevel file rest outside inside) :
      TopLevel file (token :: (taken ++ rest)) (token :: (taken ++ outside)) inside
  | toolbars {token : Token} {block rest outside inside : List Token}
      (opens : token.Spells "toolbarset") (isBlock : ToolbarBlock block)
      (onward : TopLevel file rest outside inside) :
      TopLevel file (token :: (block ++ rest)) outside (token :: (block ++ inside))
  | stray {token : Token} {rest outside inside : List Token} (plain : Production.file.Plain token)
      (onward : TopLevel file rest outside inside) :
      TopLevel file (token :: rest) (token :: outside) inside

namespace Statement

/-- Spelling `menuset` makes a token that keyword, in a file and in a text that stands alone. -/
theorem keyword?_menuset {token : Token} (opens : token.Spells "menuset") :
    Production.file.keyword? token = some .menuset ∧
      Production.definition.keyword? token = some .menuset :=
  ⟨(Production.keyword?_eq_some_iff Production.distinct_file).mpr ⟨"menuset", by decide, opens⟩,
    (Production.keyword?_eq_some_iff Production.distinct_definition).mpr
      ⟨"menuset", by decide, opens⟩⟩

theorem keyword?_toolbarset {token : Token} (opens : token.Spells "toolbarset") :
    Production.file.keyword? token = some .toolbarset :=
  (Production.keyword?_eq_some_iff Production.distinct_file).mpr ⟨"toolbarset", by decide, opens⟩

/-- What is no keyword in a file is none in a text that stands alone. -/
theorem keyword?_stray {token : Token} (plain : Production.file.Plain token) :
    Production.file.keyword? token = none ∧ Production.definition.keyword? token = none := by
  refine ⟨(Production.keyword?_eq_none_iff Production.distinct_file).mpr plain,
    (Production.keyword?_eq_none_iff Production.distinct_definition).mpr ?_⟩
  intro pair member
  rw [Production.definition, List.mem_singleton] at member
  rw [member]
  exact plain ("menuset", .menuset) (by decide)

end Statement

namespace TopLevel

variable {file : String} {tokens outside inside : List Token}

/-- Where no tokens are left, there are none outside blocks of toolbars. -/
theorem outside_eq_nil (topLevel : TopLevel file tokens outside inside) (none : tokens = []) :
    outside = [] := by
  cases topLevel with
  | finished => rfl
  | menuset | toolbars | stray => cases none

/-- What a file says at its top level are the contributions and problems of the tokens outside blocks of
toolbars.

Proof: by induction on the top level. A block of toolbars says nothing; a block of menus says the same
in front of what is left behind it. -/
theorem statements (topLevel : TopLevel file tokens outside inside) :
    Statement.contributions (Statement.readFile file tokens) =
        Statement.contributions (Statement.readDefinition file outside) ∧
      Statement.problems (Statement.readFile file tokens) =
        Statement.problems (Statement.readFile file outside) ∧
      ∀ statement ∈ Statement.readFile file tokens, statement.Plain := by
  induction topLevel with
  | finished =>
    rw [Statement.readFile, Statement.readDefinition]
    exact ⟨rfl, rfl, fun _ absent => absurd absent List.not_mem_nil⟩
  | @menuset token taken rest outside inside opens taking onward inductionHypothesis =>
    obtain ⟨contributed, reported, plain⟩ := inductionHypothesis
    obtain ⟨known, alone⟩ := Statement.keyword?_menuset opens
    have same : Passage.readMenuset file (taken ++ outside) =
        { Passage.readMenuset file (taken ++ rest) with rest := outside } :=
      Passage.readMenuset_exchange taking (onward.outside_eq_nil)
    refine ⟨?_, ?_, ?_⟩
    · rw [Statement.readFile, known, Statement.readDefinition, alone]
      simp only [same, taking, Statement.contributions_append, contributed]
    · rw [Statement.readFile, known, Statement.readFile, known]
      simp only [same, taking, Statement.problems_append, reported]
    · rw [Statement.readFile, known, List.forall_mem_append]
      simp only [taking]
      exact ⟨Passage.plain_readMenuset file (taken ++ rest), plain⟩
  | @toolbars token block rest outside inside opens isBlock onward inductionHypothesis =>
    have passed : Statement.readFile file (token :: (block ++ rest)) =
        Statement.readFile file rest := by
      rw [Statement.readFile, Statement.keyword?_toolbarset opens]
      simp [Passage.skipToolbarset_append isBlock]
    rw [passed]
    exact inductionHypothesis
  | @stray token rest outside inside plain onward inductionHypothesis =>
    obtain ⟨contributed, reported, others⟩ := inductionHypothesis
    obtain ⟨known, alone⟩ := Statement.keyword?_stray plain
    refine ⟨?_, ?_, ?_⟩
    · rw [Statement.readFile, known, Statement.readDefinition, alone]
      exact contributed
    · rw [Statement.readFile, known, Statement.readFile, known]
      exact congrArg (_ :: ·) reported
    · rw [Statement.readFile, known, List.forall_mem_cons]
      exact ⟨rfl, others⟩

/-- The tokens outside blocks of toolbars stand in the order of the file. -/
theorem sublist (topLevel : TopLevel file tokens outside inside) : outside.Sublist tokens := by
  induction topLevel with
  | finished => exact List.Sublist.refl []
  | menuset opens taking onward inductionHypothesis =>
    exact ((List.Sublist.refl _).append inductionHypothesis).cons_cons _
  | toolbars opens isBlock onward inductionHypothesis =>
    exact (inductionHypothesis.trans (List.sublist_append_right _ _)).cons _
  | stray plain onward inductionHypothesis => exact inductionHypothesis.cons_cons _

/-- Every token stands outside blocks of toolbars, or in one. -/
theorem countP_eq (property : Token → Bool) (topLevel : TopLevel file tokens outside inside) :
    tokens.countP property = outside.countP property + inside.countP property := by
  induction topLevel with
  | finished => rfl
  | menuset | toolbars | stray =>
    simp only [List.countP_cons, List.countP_append]
    omega

/-- The blocks of toolbars add no diagnostic to those of the tokens outside them exactly if no quote in
them is left unclosed. -/
theorem ofTokens_eq_iff (topLevel : TopLevel file tokens outside inside) :
    Diagnostic.ofTokens file tokens = Diagnostic.ofTokens file outside ↔
      ∀ token ∈ inside, token.isUnclosed = false := by
  have counted := topLevel.countP_eq Token.isUnclosed
  have inOrder := topLevel.sublist.filter Token.isUnclosed
  constructor
  · intro same
    have lengths := congrArg List.length same
    rw [Diagnostic.ofTokens, Diagnostic.ofTokens, List.length_map, List.length_map,
      ← List.countP_eq_length_filter, ← List.countP_eq_length_filter, counted] at lengths
    have none : inside.countP Token.isUnclosed = 0 := by omega
    rw [List.countP_eq_zero] at none
    exact fun token member => Bool.eq_false_iff.mpr (none token member)
  · intro closed
    have none : inside.countP Token.isUnclosed = 0 := by
      rw [List.countP_eq_zero]
      exact fun token member => Bool.eq_false_iff.mp (closed token member)
    rw [none, Nat.add_zero, List.countP_eq_length_filter, List.countP_eq_length_filter] at counted
    rw [Diagnostic.ofTokens, Diagnostic.ofTokens, inOrder.eq_of_length counted.symm]

/-- What is left unclosed in a block of toolbars is not the last token, since the block has an `end`. -/
theorem mem_dropLast (topLevel : TopLevel file tokens outside inside) {token : Token}
    (member : token ∈ inside) (unclosed : token.isUnclosed = true) : token ∈ tokens.dropLast := by
  induction topLevel with
  | finished => cases member
  | menuset opens taking onward inductionHypothesis =>
    have later := inductionHypothesis member
    rw [← List.cons_append,
      List.dropLast_append_of_ne_nil (List.ne_nil_of_mem (List.dropLast_subset _ later))]
    exact List.mem_append_right _ later
  | @toolbars opening block rest outside inside opens isBlock onward inductionHypothesis =>
    have noWord {other : Token} {word : String} (spells : other.Spells word) : token ≠ other := by
      rintro rfl
      rw [Token.isUnclosed_of_spells spells] at unclosed
      cases unclosed
    obtain ⟨words, last, rfl, ends⟩ := isBlock.exists_last
    have parts : opening :: (words ++ [last] ++ rest) = (opening :: words) ++ (last :: rest) := by
      simp
    rw [parts, List.dropLast_append_of_ne_nil (List.cons_ne_nil last rest)]
    rw [List.mem_cons, List.mem_append, List.mem_append, List.mem_singleton] at member
    obtain first | (inBlock | isLast) | later := member
    · exact absurd first (noWord opens)
    · exact List.mem_append_left _ (List.mem_cons_of_mem _ inBlock)
    · exact absurd isLast (noWord ends)
    · have later := inductionHypothesis later
      refine List.mem_append_right _ ?_
      rw [List.dropLast_cons_of_ne_nil (List.ne_nil_of_mem (List.dropLast_subset _ later))]
      exact List.mem_cons_of_mem _ later
  | stray plain onward inductionHypothesis =>
    have later := inductionHypothesis member
    rw [List.dropLast_cons_of_ne_nil (List.ne_nil_of_mem (List.dropLast_subset _ later))]
    exact List.mem_cons_of_mem _ later

end TopLevel

/-! ## Where the blocks end -/

namespace Statement

/-- How many tokens belong to what a token begins at the top level, besides that token. -/
def extent (file : String) (token : Token) (rest : List Token) : Nat :=
  match Production.file.keyword? token with
  | some .menuset => rest.length - (Passage.readMenuset file rest).rest.length
  | some .toolbarset => rest.length - (Passage.skipToolbarset file rest).rest.length
  | _ => 0

/-- The token begins a block of toolbars. -/
def opensToolbars (token : Token) : Bool :=
  Production.file.keyword? token == some .toolbarset

/-- The tokens outside blocks of toolbars, where each of them ends as it is read. -/
def outsideToolbars (file : String) : List Token → List Token
  | [] => []
  | token :: rest =>
    (if opensToolbars token then [] else token :: rest.take (extent file token rest)) ++
      outsideToolbars file (rest.drop (extent file token rest))
termination_by tokens => tokens.length
decreasing_by
  rw [List.length_drop, List.length_cons]
  omega

/-- The tokens that belong to one outside a block stand with it, and the others go on behind them. -/
theorem outsideToolbars_cons {file : String} {token : Token} {taken rest : List Token}
    (reaches : extent file token (taken ++ rest) = taken.length) :
    outsideToolbars file (token :: (taken ++ rest)) =
      (if opensToolbars token then [] else token :: taken) ++ outsideToolbars file rest := by
  rw [outsideToolbars, reaches, List.take_left, List.drop_left]

/-- How far a statement reaches does not depend on lines. -/
theorem extent_unplaced (file : String) (token : Token) (rest : List Token) :
    extent file token.unplaced (rest.map Token.unplaced) = extent file token rest := by
  rw [extent, extent, Production.keyword?_unplaced]
  split
  · rw [(Passage.readMenuset_unplaced file rest).2, List.length_map, List.length_map]
  · rw [Passage.rest_skipToolbarset_unplaced, List.length_map, List.length_map]
  · rfl

/-- On which side of a block a token stands does not depend on lines. -/
theorem outsideToolbars_unplaced (file : String) (tokens : List Token) :
    outsideToolbars file (tokens.map Token.unplaced) =
      (outsideToolbars file tokens).map Token.unplaced := by
  fun_induction outsideToolbars file tokens with
  | case1 => simp [outsideToolbars]
  | case2 token rest inductionHypothesis =>
    have same : opensToolbars token.unplaced = opensToolbars token := rfl
    rw [List.map_cons, outsideToolbars, extent_unplaced, same, ← List.map_drop,
      inductionHypothesis, List.map_append, ← List.map_take]
    split <;> rfl

end Statement

/-- The blocks end where they are closed. -/
theorem TopLevel.outsideToolbars_eq {file : String} {tokens outside inside : List Token}
    (topLevel : TopLevel file tokens outside inside) :
    Statement.outsideToolbars file tokens = outside := by
  induction topLevel with
  | finished => rw [Statement.outsideToolbars]
  | @menuset token taken rest outside inside opens taking onward inductionHypothesis =>
    have known := (Statement.keyword?_menuset opens).1
    have reaches : Statement.extent file token (taken ++ rest) = taken.length := by
      rw [Statement.extent, known]
      simp [taking]
    rw [Statement.outsideToolbars_cons reaches, Statement.opensToolbars, known, inductionHypothesis]
    rfl
  | @toolbars token block rest outside inside opens isBlock onward inductionHypothesis =>
    have known := Statement.keyword?_toolbarset opens
    have reaches : Statement.extent file token (block ++ rest) = block.length := by
      rw [Statement.extent, known]
      simp [Passage.skipToolbarset_append isBlock]
    rw [Statement.outsideToolbars_cons reaches, Statement.opensToolbars, known, inductionHypothesis]
    rfl
  | @stray token rest outside inside plain onward inductionHypothesis =>
    have none : Production.file.keyword? token = none := (Statement.keyword?_stray plain).1
    have alone : Statement.extent file token rest = 0 := by
      rw [Statement.extent, none]
    rw [Statement.outsideToolbars, alone, Statement.opensToolbars, none, List.take_zero,
      List.drop_zero, inductionHypothesis]
    rfl

/-! ## Reading the file -/

/-- A file that includes nothing is read alone. -/
theorem FileSystem.read_of_plain {system : FileSystem} {path text : String} {place : Location}
    (found : system.definitions path = .ok place) (stands : system.textAt place = .ok text)
    (plain : ∀ statement ∈ Statement.readFile (Location.path place) (Token.ofText text),
      statement.Plain) (digest : ByteArray → String) :
    ∃ loaded, system.read digest path = .ok loaded ∧
      loaded.registry = ({} : Registry).contributeAll (Statement.contributions
        (Statement.readFile (Location.path place) (Token.ofText text))) ∧
      loaded.diagnostics = Diagnostic.ofTokens (Location.path place) (Token.ofText text) ++
        Statement.problems (Statement.readFile (Location.path place) (Token.ofText text)) := by
  have noDirectory := isDirectoryAt_of_textAt stands
  have single : system.rootsAt place = [place] := by
    rw [rootsAt, noDirectory]
    rfl
  have whole := (List.append_nil (OpenFile.ofText place text).statements).symm
  have finished : (({} : Reading).meet digest place text).finish system digest
      [.ofText place text] =
        { ({} : Reading).meet digest place text with
          registry := ({} : Registry).contributeAll (Statement.contributions
            (Statement.readFile (Location.path place) (Token.ofText text)))
          diagnostics := Diagnostic.ofTokens (Location.path place) (Token.ofText text) ++
            Statement.problems
              (Statement.readFile (Location.path place) (Token.ofText text)) } := by
    refine (Reading.finish_plain (fun statement member => (plain statement member).ne_inclusion)
      whole).trans ((Reading.finish_end rfl).trans ?_)
    rw [Reading.finish]
    rfl
  have first : Reading.readRoot system digest {} place =
      .ok ((({} : Reading).meet digest place text).finish system digest
        [.ofText place text]) := by
    rw [Reading.readRoot, stands]
    rfl
  have loads : system.readAt digest place = .ok
      (((({} : Reading).meet digest place text).finish system digest
        [.ofText place text]).toLoaded (system.fragments place)) := by
    refine readAt_eq_ok_iff.mpr ⟨?_, _, ?_, rfl⟩
    · rw [noDirectory]
      exact fun isDirectory => absurd isDirectory Bool.false_ne_true
    · rw [single, List.foldlM_cons, first]
      rfl
  refine ⟨_, read_eq_ok_iff.mpr ⟨place, found, loads⟩, ?_, ?_⟩
  · rw [finished]
    rfl
  · rw [finished]
    rfl

end Menus
