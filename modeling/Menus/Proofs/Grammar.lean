import Menus.Proofs.Contributions
import Menus.Proofs.Segments

/-!
# The grammar of definition texts

A definition is a run of `menuset` blocks, a block is a run of menus with bodies, and a body is a run
of lines; blocks and bodies close with `end`. The grammar relates tokens to what they say: the lines of
a body to its entries, and a block to contributions. It knows the words of keywords and that an
argument is a token that spells none of the words around it, and nothing of how tokens are read.

Reading reports nothing exactly for the tokens that the grammar derives. In one direction a
derivation is read step by step. In the other, a reader that reports nothing has taken complete lines
only, and those it took make up a derivation. What the reader gathers is then what the derivation says,
and the registry holds the contributions of each menu one after another.
-/

namespace Menus

namespace Grammar

/-- One line of a body, and the entry it stands for. -/
inductive Line : List Token → Entry Menu → Prop where
  | item {head label command : Token} (opens : head.Spells "item")
      (first : Production.menuBody.Plain label) (second : Production.menuBody.Plain command) :
      Line [head, label, command] (.command label.text (.ofCommand command.text))
  | optitem {head label command : Token} (opens : head.Spells "optitem")
      (first : Production.menuBody.Plain label) (second : Production.menuBody.Plain command) :
      Line [head, label, command]
        { Entry.command label.text (.ofCommand command.text) with optional := true }
  | submenu {head label name : Token} (opens : head.Spells "submenu")
      (first : Production.menuBody.Plain label) (second : Production.menuBody.Plain name) :
      Line [head, label, name] (.submenu label.text name.text)
  | optsubmenu {head label name : Token} (opens : head.Spells "optsubmenu")
      (first : Production.menuBody.Plain label) (second : Production.menuBody.Plain name) :
      Line [head, label, name] { Entry.submenu label.text name.text with optional := true }
  | separator {head : Token} (opens : head.Spells "separator") : Line [head] .separator
  | generated {head : Token} {word : String} {generator : Generator}
      (listed : (word, .generated generator) ∈ Production.menuBody.keywords)
      (opens : head.Spells word) : Line [head] { kind := .generated generator }

/-- A body with its `end`, and its entries. -/
inductive Body : List Token → List (Entry Menu) → Prop where
  | close {token : Token} (ends : token.Spells "end") : Body [token] []
  | line {front rest : List Token} {entry : Entry Menu} {entries : List (Entry Menu)}
      (first : Line front entry) (others : Body rest entries) :
      Body (front ++ rest) (entry :: entries)

/-- What stands behind the word `menuset` up to the `end` of the block, and what it contributes. -/
inductive Block : List Token → List Contribution → Prop where
  | close {token : Token} (ends : token.Spells "end") : Block [token] []
  | menubar {head : Token} {body rest : List Token} {entries : List (Entry Menu)}
      {contributions : List Contribution} (opens : head.Spells "menubar")
      (inside : Body body entries) (others : Block rest contributions) :
      Block (head :: (body ++ rest)) (⟨none, entries⟩ :: contributions)
  | menu {head name : Token} {body rest : List Token} {entries : List (Entry Menu)}
      {contributions : List Contribution} (opens : head.Spells "menu")
      (named : Production.menuset.Plain name) (inside : Body body entries)
      (others : Block rest contributions) :
      Block (head :: name :: (body ++ rest)) (⟨some name.text, entries⟩ :: contributions)

/-- A whole definition, and what it contributes. -/
inductive Definition : List Token → List Contribution → Prop where
  | nil : Definition [] []
  | block {head : Token} {block rest : List Token} {first others : List Contribution}
      (opens : head.Spells "menuset") (inside : Block block first)
      (further : Definition rest others) :
      Definition (head :: (block ++ rest)) (first ++ others)

end Grammar

namespace Body

/-- A token that spells a word of a body is its keyword. -/
theorem keyword?_of_spells {token : Token} {word : String} {keyword : Keyword}
    (spells : token.Spells word) (listed : (word, keyword) ∈ Production.menuBody.keywords) :
    Production.menuBody.keyword? token = some keyword :=
  (Production.keyword?_eq_some_iff Production.distinct_menuBody).mpr ⟨word, listed, spells⟩

/-- A line with two arguments is read as its entry. -/
theorem read_of_pair {head first second : Token} {word description : String} {keyword : Keyword}
    {build : String → String → Entry Menu} (opens : head.Spells word)
    (listed : (word, keyword) ∈ Production.menuBody.keywords)
    (line : keyword.line = .pair description build) (firstPlain : Production.menuBody.Plain first)
    (secondPlain : Production.menuBody.Plain second) (file : String) (rest : List Token) :
    read file (head :: first :: second :: rest) =
      (read file rest).withEntry (build first.text second.text) := by
  have takesFirst := (Production.takesArgument_iff Production.distinct_menuBody).mpr firstPlain
  have takesSecond := (Production.takesArgument_iff Production.distinct_menuBody).mpr secondPlain
  rw [read, keyword?_of_spells opens listed]
  simp [line, takesFirst, takesSecond]

/-- A line without arguments is read as its entry. -/
theorem read_of_word {head : Token} {word : String} {keyword : Keyword} {entry : Entry Menu}
    (opens : head.Spells word) (listed : (word, keyword) ∈ Production.menuBody.keywords)
    (line : keyword.line = .plain entry) (file : String) (rest : List Token) :
    read file (head :: rest) = (read file rest).withEntry entry := by
  rw [read, keyword?_of_spells opens listed]
  simp [line]

/-- A line is read as its entry, whatever follows. -/
theorem read_of_line {front : List Token} {entry : Entry Menu} (line : Grammar.Line front entry)
    (file : String) (rest : List Token) :
    read file (front ++ rest) = (read file rest).withEntry entry := by
  cases line with
  | item opens first second =>
    have listed : ("item", Keyword.item false) ∈ Production.menuBody.keywords := by decide
    exact read_of_pair opens listed rfl first second file rest
  | optitem opens first second =>
    have listed : ("optitem", Keyword.item true) ∈ Production.menuBody.keywords := by decide
    exact read_of_pair opens listed rfl first second file rest
  | submenu opens first second =>
    have listed : ("submenu", Keyword.submenu false) ∈ Production.menuBody.keywords := by decide
    exact read_of_pair opens listed rfl first second file rest
  | optsubmenu opens first second =>
    have listed : ("optsubmenu", Keyword.submenu true) ∈ Production.menuBody.keywords := by decide
    exact read_of_pair opens listed rfl first second file rest
  | separator opens =>
    have listed : ("separator", Keyword.separator) ∈ Production.menuBody.keywords := by decide
    exact read_of_word opens listed rfl file rest
  | generated listed opens => exact read_of_word opens listed rfl file rest

/-- A derived body is read as its entries without a diagnostic, and its `end` is the last token
taken. -/
theorem read_of_derived {body : List Token} {entries : List (Entry Menu)}
    (derived : Grammar.Body body entries) (file : String) (rest : List Token) :
    read file (body ++ rest) = { entries, rest } := by
  induction derived with
  | close ends =>
    rw [List.singleton_append, read, keyword?_eq_close_iff.mpr ends]
    rfl
  | line first _ inductionHypothesis =>
    rw [List.append_assoc, read_of_line first, inductionHypothesis]
    rfl

/-- The lines that take two arguments. -/
theorem line_of_pair {head first second : Token} {keyword : Keyword} {description : String}
    {build : String → String → Entry Menu}
    (known : Production.menuBody.keyword? head = some keyword)
    (line : keyword.line = .pair description build)
    (firstPlain : Production.menuBody.takesArgument first = true)
    (secondPlain : Production.menuBody.takesArgument second = true) :
    Grammar.Line [head, first, second] (build first.text second.text) := by
  rw [Production.takesArgument_iff Production.distinct_menuBody] at firstPlain secondPlain
  cases keyword with
  | item optional =>
    obtain ⟨rfl, rfl⟩ := Line.pair.inj line
    cases optional with
    | false =>
      have opens : head.Spells "item" :=
        Production.spells_of_keyword? Production.distinct_menuBody known (by decide)
      exact .item opens firstPlain secondPlain
    | true =>
      have opens : head.Spells "optitem" :=
        Production.spells_of_keyword? Production.distinct_menuBody known (by decide)
      exact .optitem opens firstPlain secondPlain
  | submenu optional =>
    obtain ⟨rfl, rfl⟩ := Line.pair.inj line
    cases optional with
    | false =>
      have opens : head.Spells "submenu" :=
        Production.spells_of_keyword? Production.distinct_menuBody known (by decide)
      exact .submenu opens firstPlain secondPlain
    | true =>
      have opens : head.Spells "optsubmenu" :=
        Production.spells_of_keyword? Production.distinct_menuBody known (by decide)
      exact .optsubmenu opens firstPlain secondPlain
  | _ => cases line

/-- The lines without arguments. -/
theorem line_of_word {head : Token} {keyword : Keyword} {entry : Entry Menu}
    (known : Production.menuBody.keyword? head = some keyword)
    (line : keyword.line = .plain entry) : Grammar.Line [head] entry := by
  cases keyword with
  | separator =>
    cases line
    exact .separator (Production.spells_of_keyword? Production.distinct_menuBody known (by decide))
  | generated generator =>
    cases line
    obtain ⟨word, listed, opens⟩ :=
      (Production.keyword?_eq_some_iff Production.distinct_menuBody).mp known
    exact .generated listed opens
  | _ => cases line

/-- Every keyword of a body announces a line or closes the body. -/
theorem line_ne_nothing {token : Token} {keyword : Keyword}
    (known : Production.menuBody.keyword? token = some keyword) : keyword.line ≠ .nothing := by
  obtain ⟨word, listed, _⟩ :=
    (Production.keyword?_eq_some_iff Production.distinct_menuBody).mp known
  have all : ∀ pair ∈ Production.menuBody.keywords, pair.2.line ≠ .nothing := by
    simp [Production.menuBody, Keyword.line]
  exact all _ listed

/-- Where reading a body reports nothing, the tokens it took derive its entries.

Proof: by induction on the reading. A step that reports nothing has taken a complete line or the
`end`. -/
theorem derived_of_read {file : String} {tokens : List Token}
    (silent : (read file tokens).problems = []) :
    ∃ body, tokens = body ++ (read file tokens).rest ∧
      Grammar.Body body (read file tokens).entries := by
  fun_induction read file tokens with
  | case1 => cases silent
  | case2 => cases silent
  | case3 token rest keyword known finishes =>
    rw [Keyword.eq_close_of_line finishes] at known
    exact ⟨[token], rfl, .close (keyword?_eq_close_iff.mp known)⟩
  | case4 token rest keyword known entry line inductionHypothesis =>
    obtain ⟨body, taken, derived⟩ := inductionHypothesis silent
    exact ⟨token :: body, congrArg (token :: ·) taken, .line (line_of_word known line) derived⟩
  | case5 token rest keyword known line => exact absurd line (line_ne_nothing known)
  | case6 => cases silent
  | case7 => cases silent
  | case8 token keyword known second build line label plainLabel argument rest plainArgument
      inductionHypothesis =>
    obtain ⟨body, taken, derived⟩ := inductionHypothesis silent
    exact ⟨token :: label :: argument :: body,
      congrArg (fun rest => token :: label :: argument :: rest) taken,
      .line (line_of_pair known line plainLabel plainArgument) derived⟩
  | case9 => cases silent
  | case10 => cases silent

end Body

namespace Statement

/-- Contributions as statements. -/
def ofContributions (contributions : List Contribution) : List Statement :=
  contributions.map .contribute

@[simp] theorem problems_ofContributions (contributions : List Contribution) :
    problems (ofContributions contributions) = [] := by
  simp [problems, ofContributions, problem?]

@[simp] theorem contributions_ofContributions (contributed : List Contribution) :
    contributions (ofContributions contributed) = contributed := by
  simp [contributions, ofContributions, contribution?, Function.comp_def]

/-- The problems of statements are those of their parts. -/
theorem problems_append (first second : List Statement) :
    problems (first ++ second) = problems first ++ problems second :=
  List.filterMap_append

/-- A body read without a problem is one contribution. -/
theorem ofBody_of_silent {menu : Option String} {body : Body} (silent : body.problems = []) :
    ofBody menu body = ofContributions [⟨menu, body.entries⟩] := by
  rw [ofBody, silent]
  rfl

/-- The statements of a body hold its problems. -/
theorem problems_ofBody (menu : Option String) (body : Body) :
    problems (ofBody menu body) = body.problems := by
  have own (diagnostics : List Diagnostic) :
      (diagnostics.map problem).filterMap problem? = diagnostics := by
    rw [List.filterMap_map]
    exact List.filterMap_some
  rw [problems, ofBody, List.filterMap_cons_none rfl, own]

end Statement

namespace Passage

/-- A token that spells a word of a block is its keyword. -/
theorem keyword?_of_spells {token : Token} {word : String} {keyword : Keyword}
    (spells : token.Spells word) (listed : (word, keyword) ∈ Production.menuset.keywords) :
    Production.menuset.keyword? token = some keyword :=
  (Production.keyword?_eq_some_iff Production.distinct_menuset).mpr ⟨word, listed, spells⟩

/-- A derived block is read as its contributions, and its `end` is the last token taken. -/
theorem readMenuset_of_derived {block : List Token} {contributions : List Contribution}
    (derived : Grammar.Block block contributions) (file : String) (rest : List Token) :
    readMenuset file (block ++ rest) =
      { statements := Statement.ofContributions contributions, rest } := by
  induction derived with
  | close ends =>
    have known : Production.menuset.keyword? _ = some .close := keyword?_of_spells ends (by decide)
    rw [List.singleton_append, readMenuset, known]
    rfl
  | @menubar head body others entries contributions opens inside _ inductionHypothesis =>
    have known : Production.menuset.keyword? head = some .menubar :=
      keyword?_of_spells opens (by decide)
    have read := Body.read_of_derived inside file (others ++ rest)
    rw [List.cons_append, List.append_assoc, readMenuset, known]
    simp only [read, inductionHypothesis]
    rfl
  | @menu head name body others entries contributions opens named inside _ inductionHypothesis =>
    have known : Production.menuset.keyword? head = some .menu :=
      keyword?_of_spells opens (by decide)
    have takes := (Production.takesArgument_iff Production.distinct_menuset).mpr named
    have read := Body.read_of_derived inside file (others ++ rest)
    rw [List.cons_append, List.cons_append, List.append_assoc, readMenuset, known]
    simp only [takes, if_true, read, inductionHypothesis]
    rfl

/-- Where reading a block reports nothing, the tokens it took derive the contributions it states.

Proof: by induction on the reading. A step that reports nothing has taken the `end`, or a menu whose
body reports nothing and is therefore derived. -/
theorem derived_of_readMenuset {file : String} {tokens : List Token}
    (silent : Statement.problems (readMenuset file tokens).statements = []) :
    ∃ block contributions, tokens = block ++ (readMenuset file tokens).rest ∧
      Grammar.Block block contributions ∧
      (readMenuset file tokens).statements = Statement.ofContributions contributions := by
  fun_induction readMenuset file tokens with
  | case1 => cases silent
  | case2 token rest known =>
    have ends : token.Spells "end" :=
      Production.spells_of_keyword? Production.distinct_menuset known (by decide)
    exact ⟨[token], [], rfl, .close ends, rfl⟩
  | case3 token rest known body inductionHypothesis =>
    simp only [after, Statement.problems_append, Statement.problems_ofBody,
      List.append_eq_nil_iff] at silent
    obtain ⟨bodySilent, restSilent⟩ := silent
    obtain ⟨bodyTokens, bodyTaken, bodyDerived⟩ := Body.derived_of_read bodySilent
    obtain ⟨block, contributions, taken, derived, stated⟩ := inductionHypothesis restSilent
    have opens : token.Spells "menubar" :=
      Production.spells_of_keyword? Production.distinct_menuset known (by decide)
    refine ⟨token :: (bodyTokens ++ block), ⟨none, body.entries⟩ :: contributions, ?_,
      .menubar opens bodyDerived derived, ?_⟩
    · rw [rest_after, List.cons_append, List.append_assoc, ← taken, ← bodyTaken]
    · rw [after, Statement.ofBody_of_silent bodySilent, stated]
      rfl
  | case4 => cases silent
  | case5 token known name rest plain body inductionHypothesis =>
    simp only [after, Statement.problems_append, Statement.problems_ofBody,
      List.append_eq_nil_iff] at silent
    obtain ⟨bodySilent, restSilent⟩ := silent
    obtain ⟨bodyTokens, bodyTaken, bodyDerived⟩ := Body.derived_of_read bodySilent
    obtain ⟨block, contributions, taken, derived, stated⟩ := inductionHypothesis restSilent
    have opens : token.Spells "menu" :=
      Production.spells_of_keyword? Production.distinct_menuset known (by decide)
    have named := (Production.takesArgument_iff Production.distinct_menuset).mp plain
    refine ⟨token :: name :: (bodyTokens ++ block), ⟨some name.text, body.entries⟩ :: contributions,
      ?_, .menu opens named bodyDerived derived, ?_⟩
    · rw [rest_after, List.cons_append, List.cons_append, List.append_assoc, ← taken, ← bodyTaken]
    · rw [after, Statement.ofBody_of_silent bodySilent, stated]
      rfl
  | case6 => cases silent
  | case7 => cases silent

end Passage

namespace Statement

/-- A derived definition is read as its contributions. -/
theorem readDefinition_of_derived {tokens : List Token} {contributed : List Contribution}
    (derived : Grammar.Definition tokens contributed) (file : String) :
    readDefinition file tokens = ofContributions contributed := by
  induction derived with
  | nil =>
    rw [readDefinition]
    rfl
  | @block head block rest first others opens inside _ inductionHypothesis =>
    have known : Production.definition.keyword? head = some .menuset :=
      (Production.keyword?_eq_some_iff Production.distinct_definition).mpr
        ⟨"menuset", by decide, opens⟩
    rw [readDefinition, known]
    simp only [Passage.readMenuset_of_derived inside file rest, inductionHypothesis]
    simp [ofContributions]

/-- Where reading a definition reports nothing, its tokens are derived. -/
theorem derived_of_readDefinition {file : String} {tokens : List Token}
    (silent : problems (readDefinition file tokens) = []) :
    ∃ contributed, Grammar.Definition tokens contributed := by
  fun_induction readDefinition file tokens with
  | case1 => exact ⟨[], .nil⟩
  | case2 token rest known block inductionHypothesis =>
    rw [problems_append, List.append_eq_nil_iff] at silent
    obtain ⟨blockSilent, restSilent⟩ := silent
    obtain ⟨blockTokens, first, taken, derived, _⟩ := Passage.derived_of_readMenuset blockSilent
    obtain ⟨others, further⟩ := inductionHypothesis restSilent
    have opens : token.Spells "menuset" :=
      Production.spells_of_keyword? Production.distinct_definition known (by decide)
    rw [taken]
    exact ⟨first ++ others, .block opens derived further⟩
  | case3 => cases silent

end Statement

/-- A definition text is read without a diagnostic if and only if no quote in it is left open and the
grammar derives its tokens; the registry is then the one in which each menu has the entries that the
derivation gives to it. -/
theorem silent_definitions_are_derived (file text : String) :
    ((Registry.parse file text).2 = [] ↔
      (∀ token ∈ Token.ofText text, token.isUnclosed = false) ∧
        ∃ contributions, Grammar.Definition (Token.ofText text) contributions) ∧
      ∀ contributions, Grammar.Definition (Token.ofText text) contributions →
        (Registry.parse file text).1 = .ofContributions contributions := by
  have closed : Diagnostic.ofTokens file (Token.ofText text) = [] ↔
      ∀ token ∈ Token.ofText text, token.isUnclosed = false := by
    simp [Diagnostic.ofTokens, List.filter_eq_nil_iff]
  constructor
  · rw [Registry.parse, List.append_eq_nil_iff, closed]
    constructor
    · rintro ⟨noneOpen, silent⟩
      exact ⟨noneOpen, Statement.derived_of_readDefinition silent⟩
    · rintro ⟨noneOpen, contributions, derived⟩
      rw [Statement.readDefinition_of_derived derived]
      exact ⟨noneOpen, Statement.problems_ofContributions contributions⟩
  · intro contributions derived
    rw [Registry.parse, Statement.readDefinition_of_derived derived,
      Statement.contributions_ofContributions, Registry.contributeAll_empty]

/-- A definition in two blocks, with keywords in capitals and keywords of other productions as names
and labels. -/
def splitDefinition : String :=
  "menuset menubar submenu menuset menubar end end\nMenuset MENU item optitem menu \"end\" Toc END end"

/-- The tokens of the definition. -/
theorem ofText_splitDefinition : Token.ofText splitDefinition =
    [⟨"menuset", 1, .bare⟩, ⟨"menubar", 1, .bare⟩, ⟨"submenu", 1, .bare⟩, ⟨"menuset", 1, .bare⟩,
      ⟨"menubar", 1, .bare⟩, ⟨"end", 1, .bare⟩, ⟨"end", 1, .bare⟩,
      ⟨"Menuset", 2, .bare⟩, ⟨"MENU", 2, .bare⟩, ⟨"item", 2, .bare⟩, ⟨"optitem", 2, .bare⟩,
      ⟨"menu", 2, .bare⟩, ⟨"end", 2, .quoted⟩, ⟨"Toc", 2, .bare⟩, ⟨"END", 2, .bare⟩,
      ⟨"end", 2, .bare⟩] := by
  decide +kernel

/-- The grammar derives the definition. -/
theorem derived_splitDefinition : Grammar.Definition (Token.ofText splitDefinition)
    [⟨none, [.submenu "menuset" "menubar"]⟩,
      ⟨some "item", [{ Entry.command "menu" (.ofCommand "end") with optional := true },
        { kind := .generated .contents }]⟩] := by
  rw [ofText_splitDefinition]
  have menubar : Grammar.Body
      ([⟨"submenu", 1, .bare⟩, ⟨"menuset", 1, .bare⟩, ⟨"menubar", 1, .bare⟩] ++
        [⟨"end", 1, .bare⟩])
      [.submenu "menuset" "menubar"] :=
    .line (.submenu (by decide) (by decide) (by decide)) (.close (by decide))
  have first : Grammar.Block (⟨"menubar", 1, .bare⟩ :: (_ ++ [⟨"end", 1, .bare⟩])) [⟨none, _⟩] :=
    .menubar (by decide) menubar (.close (by decide))
  have toc : ("toc", .generated .contents) ∈ Production.menuBody.keywords := by decide
  have item : Grammar.Body
      ([⟨"optitem", 2, .bare⟩, ⟨"menu", 2, .bare⟩, ⟨"end", 2, .quoted⟩] ++
        ([⟨"Toc", 2, .bare⟩] ++ [⟨"END", 2, .bare⟩]))
      [{ Entry.command "menu" (.ofCommand "end") with optional := true },
        { kind := .generated .contents }] :=
    .line (.optitem (by decide) (by decide) (by decide))
      (.line (.generated toc (by decide)) (.close (by decide)))
  have second : Grammar.Block
      (⟨"MENU", 2, .bare⟩ :: ⟨"item", 2, .bare⟩ :: (_ ++ [⟨"end", 2, .bare⟩]))
      [⟨some "item", _⟩] :=
    .menu (by decide) (by decide) item (.close (by decide))
  have opensFirst : Token.Spells ⟨"menuset", 1, .bare⟩ "menuset" := by decide
  have opensSecond : Token.Spells ⟨"Menuset", 2, .bare⟩ "menuset" := by decide
  exact .block opensFirst first (.block opensSecond second .nil)

/-- The definition is read without a diagnostic, as the registry of its derivation. -/
theorem splitDefinition_read_as_derived :
    (Registry.parse "menus" splitDefinition).2 = [] ∧
      (Registry.parse "menus" splitDefinition).1 =
        { menubar := ⟨"", [.submenu "menuset" "menubar"]⟩
          menus := [⟨"item", [{ Entry.command "menu" (.ofMenu "end" "") with optional := true },
            { kind := .generated .contents }]⟩] } := by
  obtain ⟨silent, registry⟩ := silent_definitions_are_derived "menus" splitDefinition
  constructor
  · rw [silent, ofText_splitDefinition]
    exact ⟨by decide, _, ofText_splitDefinition ▸ derived_splitDefinition⟩
  · rw [registry _ derived_splitDefinition]
    decide +kernel

end Menus
