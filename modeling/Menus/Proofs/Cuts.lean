import Menus.Proofs.Quotes
import Menus.Proofs.Toolbars

/-!
# Blocks of toolbars cut out of a text

A definition text from which the blocks of toolbars at the top level are cut out is read as the tokens
outside those blocks, whatever the blocks hold, apart from the lines on which they stand. A block
begins with a word. In front of a word there is the end of a quoted text, something that separates, or
nothing; so what is in front of the block is read in the same way with anything else behind it. A quote
that breaks off at a stranded backslash is no exception, because the backslash begins another word and
a line end stands behind that.

So a file is read as the text without its blocks of toolbars, and all that the blocks can add are
reports of quotes in them that nothing closes.
-/

namespace Menus

namespace Token

/-! ## Places between tokens -/

/-- The text from its first token on. -/
def core : List Char → List Char
  | [] => []
  | c :: rest =>
    if Text.isBlank c then core rest
    else if c = '#' then core (rest.dropWhile (· ≠ '\n'))
    else c :: rest
termination_by text => text.length
decreasing_by
  · exact Nat.lt_succ_self _
  · exact Nat.lt_succ_of_le (length_dropWhile_le _ rest)

/-- The text behind its first token. -/
def behindFirst (text : List Char) : List Char :=
  match core text with
  | [] => []
  | c :: rest => if c = '"' then (readQuoted rest).rest else rest.dropWhile isWordChar

/-- The text behind a number of tokens. -/
def behind : Nat → List Char → List Char
  | 0, text => text
  | count + 1, text => behind count (behindFirst text)

/-- Reading a text comes to a place between tokens from which the rest is left. -/
inductive Reaches : List Char → List Char → Prop where
  | here (text : List Char) : Reaches text text
  | blank {c : Char} {rest goal : List Char} (separates : Text.isBlank c = true)
      (onward : Reaches rest goal) : Reaches (c :: rest) goal
  | comment {rest goal : List Char} (onward : Reaches (rest.dropWhile (· ≠ '\n')) goal) :
      Reaches ('#' :: rest) goal
  | quote {rest goal : List Char} (onward : Reaches (readQuoted rest).rest goal) :
      Reaches ('"' :: rest) goal
  | word {c : Char} {rest goal : List Char} (begins : isWordChar c = true)
      (onward : Reaches (rest.dropWhile isWordChar) goal) : Reaches (c :: rest) goal

theorem Reaches.trans {text middle goal : List Char} (first : Reaches text middle)
    (second : Reaches middle goal) : Reaches text goal := by
  induction first with
  | here => exact second
  | blank separates onward inductionHypothesis => exact .blank separates (inductionHypothesis second)
  | comment onward inductionHypothesis => exact .comment (inductionHypothesis second)
  | quote onward inductionHypothesis => exact .quote (inductionHypothesis second)
  | word begins onward inductionHypothesis => exact .word begins (inductionHypothesis second)

/-- What is left at a place ends the text. -/
theorem Reaches.suffix {text goal : List Char} (reaches : Reaches text goal) : goal <:+ text := by
  induction reaches with
  | here => exact List.suffix_rfl
  | blank separates onward inductionHypothesis =>
    exact inductionHypothesis.trans (List.suffix_cons _ _)
  | comment onward inductionHypothesis =>
    exact inductionHypothesis.trans ((List.dropWhile_suffix _).trans (List.suffix_cons _ _))
  | @quote rest goal onward inductionHypothesis =>
    refine inductionHypothesis.trans (List.IsSuffix.trans ?_ (List.suffix_cons _ _))
    obtain ⟨chars, -, ⟨-, split⟩ | ⟨-, split, -⟩⟩ := readQuoted_quotation rest
    · exact ⟨chars ++ ['"'], by simpa using split.symm⟩
    · exact ⟨chars, split.symm⟩
  | word begins onward inductionHypothesis =>
    exact inductionHypothesis.trans ((List.dropWhile_suffix _).trans (List.suffix_cons _ _))

theorem reaches_core (text : List Char) : Reaches text (core text) := by
  fun_induction core text with
  | case1 => exact .here []
  | case2 c rest separates inductionHypothesis => exact .blank separates inductionHypothesis
  | case3 rest noBlank inductionHypothesis => exact .comment inductionHypothesis
  | case4 c rest noBlank noComment => exact .here (c :: rest)

/-- A token stands where a text begins with one. -/
theorem isWordChar_of_core {text rest : List Char} {c : Char} (begins : core text = c :: rest) :
    c = '"' ∨ isWordChar c = true := by
  fun_induction core text with
  | case1 => cases begins
  | case2 _ _ _ inductionHypothesis => exact inductionHypothesis begins
  | case3 _ _ inductionHypothesis => exact inductionHypothesis begins
  | case4 d others noBlank noComment =>
    cases begins
    by_cases quote : c = '"'
    · exact .inl quote
    · exact .inr ((isWordChar_iff c).mpr ⟨Bool.not_eq_true _ ▸ noBlank, quote, noComment⟩)

theorem reaches_behindFirst (text : List Char) : Reaches text (behindFirst text) := by
  refine (reaches_core text).trans ?_
  rw [behindFirst]
  cases begins : core text with
  | nil => exact .here []
  | cons c rest =>
    dsimp only
    split
    · next quote =>
      rw [quote]
      exact .quote (.here _)
    · next noQuote =>
      exact .word ((isWordChar_of_core begins).resolve_left noQuote) (.here _)

theorem reaches_behind (count : Nat) (text : List Char) : Reaches text (behind count text) := by
  induction count generalizing text with
  | zero => exact .here text
  | succ count inductionHypothesis =>
    exact (reaches_behindFirst text).trans (inductionHypothesis (behindFirst text))

/-! ## Tokens without lines -/

/-- The tokens of a text without the lines on which they stand. -/
def spelled (text : List Char) : List Token := (scan 1 text).map unplaced

/-- Wherever a text stands, it has the same tokens. -/
theorem map_unplaced_scan (line : Nat) (text : List Char) :
    (scan line text).map unplaced = spelled text := by
  have same : unplaced ∘ movedDown line = unplaced := rfl
  have once : unplaced ∘ movedDown 1 = unplaced := rfl
  have here := scan_add 0 line text
  have first := scan_add 0 1 text
  rw [Nat.zero_add] at here first
  rw [spelled, here, first, List.map_map, List.map_map, same, once]

theorem spelled_nil : spelled [] = [] := by
  rw [spelled, scan]
  rfl

theorem spelled_blank {c : Char} (separates : Text.isBlank c = true) (rest : List Char) :
    spelled (c :: rest) = spelled rest := by
  rw [spelled, scan_blank 1 separates, map_unplaced_scan]

theorem spelled_comment (rest : List Char) :
    spelled ('#' :: rest) = spelled (rest.dropWhile (· ≠ '\n')) := by
  rw [spelled, scan_comment, map_unplaced_scan]

theorem spelled_quote (rest : List Char) :
    spelled ('"' :: rest) =
      ⟨String.ofList (readQuoted rest).text, 0,
          if (readQuoted rest).closed then .quoted else .unclosed⟩ ::
        spelled (readQuoted rest).rest := by
  rw [spelled, scan_quote, List.map_cons, map_unplaced_scan]
  rfl

theorem spelled_word {c : Char} (begins : isWordChar c = true) (rest : List Char) :
    spelled (c :: rest) =
      ⟨String.ofList (c :: rest.takeWhile isWordChar), 0, .bare⟩ ::
        spelled (rest.dropWhile isWordChar) := by
  rw [spelled, scan_word 1 begins, List.map_cons, map_unplaced_scan]
  rfl

/-- Nothing stands in front of the first token. -/
theorem spelled_core (text : List Char) : spelled (core text) = spelled text := by
  fun_induction core text with
  | case1 => rfl
  | case2 c rest separates inductionHypothesis =>
    rw [spelled_blank separates, inductionHypothesis]
  | case3 rest noBlank inductionHypothesis => rw [spelled_comment, inductionHypothesis]
  | case4 => rfl

theorem spelled_behindFirst (text : List Char) :
    spelled (behindFirst text) = (spelled text).tail := by
  rw [behindFirst, ← spelled_core text]
  cases begins : core text with
  | nil => rw [spelled_nil, List.tail_nil]
  | cons c rest =>
    dsimp only
    split
    · next quote => rw [quote, spelled_quote, List.tail_cons]
    · next noQuote =>
      rw [spelled_word ((isWordChar_of_core begins).resolve_left noQuote), List.tail_cons]

/-- Behind a number of tokens stand the others. -/
theorem spelled_behind (count : Nat) (text : List Char) :
    spelled (behind count text) = (spelled text).drop count := by
  induction count generalizing text with
  | zero => rfl
  | succ count inductionHypothesis =>
    rw [behind, inductionHypothesis, spelled_behindFirst, List.drop_tail]

/-! ## Places in front of words -/

/-- What is taken between quotes is taken in front of any text, if a text that breaks the quotes off goes
on with the same two characters. -/
theorem readQuoted_exchange (text : List Char) :
    ∃ taken, text = taken ++ (readQuoted text).rest ∧
      ∀ other, ((readQuoted text).closed = false → other.take 2 = (readQuoted text).rest.take 2) →
        readQuoted (taken ++ other) = { readQuoted text with rest := other } := by
  fun_induction readQuoted text with
  | case1 =>
    refine ⟨[], rfl, fun other same => ?_⟩
    obtain rfl : other = [] := by simpa using same rfl
    rfl
  | case2 rest => exact ⟨['"'], rfl, fun other _ => rfl⟩
  | case3 rest =>
    refine ⟨[], rfl, fun other same => ?_⟩
    rw [List.nil_append, ← List.take_append_drop 2 other, same rfl]
    rfl
  | case4 c rest notLineEnd inductionHypothesis =>
    obtain ⟨taken, whole, exchange⟩ := inductionHypothesis
    refine ⟨'\\' :: c :: taken, ?_, fun other same => ?_⟩
    · exact congrArg ('\\' :: c :: ·) whole
    · rw [List.cons_append, List.cons_append, readQuoted, if_neg notLineEnd, exchange other same]
      rfl
  | case5 =>
    refine ⟨[], rfl, fun other same => ?_⟩
    cases other with
    | nil => cases same rfl
    | cons d others =>
      cases others with
      | nil =>
        cases same rfl
        rfl
      | cons e others => cases same rfl
  | case6 c rest noQuote noEscape noBackslash inductionHypothesis =>
    obtain ⟨taken, whole, exchange⟩ := inductionHypothesis
    refine ⟨c :: taken, ?_, fun other same => ?_⟩
    · exact congrArg (c :: ·) whole
    · rw [List.cons_append, readQuoted_cons noQuote (ne_backslash noEscape noBackslash),
        exchange other same]
      rfl

/-- A piece that is taken as a whole ends in front of a place where more would be taken. So it is taken in
front of any other text there. -/
theorem takeWhile_exchange {p : Char → Bool} {text front rest : List Char} {c : Char}
    (whole : text.dropWhile p = front ++ c :: rest) (takes : p c = true) (other : List Char) :
    (text.takeWhile p ++ (front ++ other)).takeWhile p = text.takeWhile p ∧
      (text.takeWhile p ++ (front ++ other)).dropWhile p = front ++ other := by
  have stopped : ∀ d ∈ (front ++ c :: rest).head?, p d = false := whole ▸ head?_dropWhile
  refine takeWhile_exact (List.all_eq_true.mp List.all_takeWhile) ?_
  cases front with
  | nil =>
    rw [stopped c rfl] at takes
    cases takes
  | cons d front => exact stopped

/-- What stands in front of a word that does not begin with a backslash is read in the same way in front
of any text.

Proof: by induction on the way to the word. A comment and a word in front of it have ended before, and
where quotes were broken off, the backslash and the line end stand in front of it too. -/
theorem Reaches.splits {text goal rest : List Char} {c : Char} (reaches : Reaches text goal)
    (isGoal : goal = c :: rest) (begins : isWordChar c = true) (noBackslash : c ≠ '\\') :
    ∃ front tokens, text = front ++ goal ∧
      ∀ other, spelled (front ++ other) = tokens ++ spelled other := by
  have noLineEnd : c ≠ '\n' := by
    rintro rfl
    exact absurd begins (by decide)
  induction reaches with
  | here => exact ⟨[], [], rfl, fun other => rfl⟩
  | @blank d others goal separates onward inductionHypothesis =>
    obtain ⟨front, tokens, whole, reads⟩ := inductionHypothesis isGoal
    refine ⟨d :: front, tokens, congrArg (d :: ·) whole, fun other => ?_⟩
    rw [List.cons_append, spelled_blank separates, reads]
  | @comment others goal onward inductionHypothesis =>
    obtain ⟨front, tokens, whole, reads⟩ := inductionHypothesis isGoal
    have passes : decide (c ≠ '\n') = true := decide_eq_true noLineEnd
    refine ⟨'#' :: (others.takeWhile (· ≠ '\n') ++ front), tokens, ?_, fun other => ?_⟩
    · rw [List.cons_append, List.append_assoc, ← whole, List.takeWhile_append_dropWhile]
    · rw [List.cons_append, List.append_assoc, spelled_comment,
        (takeWhile_exchange (isGoal ▸ whole) passes other).2, reads]
  | @quote others goal onward inductionHypothesis =>
    obtain ⟨front, tokens, whole, reads⟩ := inductionHypothesis isGoal
    obtain ⟨taken, split, exchange⟩ := readQuoted_exchange others
    have inFront (opened : (readQuoted others).closed = false) (other : List Char) :
        (front ++ other).take 2 = (readQuoted others).rest.take 2 := by
      obtain ⟨chars, -, ⟨closed, -⟩ | ⟨-, -, left⟩⟩ := readQuoted_quotation others
      · rw [opened] at closed
        cases closed
      · rw [whole] at left ⊢
        match front with
        | [] =>
          rw [isGoal] at left
          exact absurd (left c rest rfl).1 noBackslash
        | [d] =>
          rw [isGoal] at left
          exact absurd ((left d (c :: rest) rfl).2 c rfl) noLineEnd
        | d :: e :: front => rfl
    refine ⟨'"' :: (taken ++ front),
      ⟨String.ofList (readQuoted others).text, 0,
        if (readQuoted others).closed then .quoted else .unclosed⟩ :: tokens, ?_, fun other => ?_⟩
    · rw [List.cons_append, List.append_assoc, ← whole, ← split]
    · have exchanged := exchange (front ++ other) fun opened => inFront opened other
      rw [List.cons_append, List.append_assoc, spelled_quote, exchanged, reads]
      rfl
  | @word d others goal opens onward inductionHypothesis =>
    obtain ⟨front, tokens, whole, reads⟩ := inductionHypothesis isGoal
    refine ⟨d :: (others.takeWhile isWordChar ++ front),
      ⟨String.ofList (d :: others.takeWhile isWordChar), 0, .bare⟩ :: tokens, ?_, fun other => ?_⟩
    · rw [List.cons_append, List.append_assoc, ← whole, List.takeWhile_append_dropWhile]
    · obtain ⟨taken, left⟩ := takeWhile_exchange (isGoal ▸ whole) begins other
      rw [List.cons_append, List.append_assoc, spelled_word opens, taken, left, reads]
      rfl

/-- Behind tokens there is less of a text that has some. -/
theorem length_behind_lt {text : List Char} {line : Nat} (some : scan line text ≠ []) (count : Nat) :
    (behind (count + 1) text).length < text.length := by
  have fromCore := (reaches_core text).suffix.length_le
  have onward := (reaches_behind count (behindFirst text)).suffix.length_le
  suffices first : (behindFirst text).length < text.length by
    rw [behind]
    omega
  rw [behindFirst]
  cases begins : core text with
  | nil =>
    have none := map_unplaced_scan line text
    rw [← spelled_core, begins, spelled_nil, List.map_eq_nil_iff] at none
    exact absurd none some
  | cons c rest =>
    rw [begins, List.length_cons] at fromCore
    have inQuotes := readQuoted_rest_length rest
    have inWord := length_dropWhile_le isWordChar rest
    dsimp only
    split <;> omega

/-- What stands in front of an end of a text. -/
def upTo (text ending : List Char) : List Char := text.take (text.length - ending.length)

theorem upTo_append {text ending : List Char} (ends : ending <:+ text) :
    upTo text ending ++ ending = text := by
  obtain ⟨front, rfl⟩ := ends
  rw [upTo, List.length_append, Nat.add_sub_cancel, List.take_left]

end Token

open Token in
/-- The text of a definition file without the blocks of toolbars at its top level. What stands in front
of the keyword of a block stays, and so does what stands behind the end of the block. -/
def withoutToolbars (file : String) (text : List Char) : List Char :=
  match _read : scan 1 text with
  | [] => text
  | token :: rest =>
    (if Statement.opensToolbars token then upTo text (core text)
      else upTo text (behind (Statement.extent file token rest + 1) text)) ++
      withoutToolbars file (behind (Statement.extent file token rest + 1) text)
termination_by text.length
decreasing_by exact length_behind_lt (by rw [_read]; exact List.cons_ne_nil token rest) _

namespace Token

/-- A block of toolbars begins with a word that does not begin with a backslash. -/
theorem core_of_opensToolbars {text : List Char} {token : Token} {rest : List Token}
    (read : spelled text = token :: rest) (opens : Statement.opensToolbars token = true) :
    ∃ c others, core text = c :: others ∧ isWordChar c = true ∧ c ≠ '\\' := by
  have spells : token.Spells "toolbarset" := by
    rw [Statement.opensToolbars, beq_iff_eq] at opens
    exact Production.spells_of_keyword? Production.distinct_file opens (by decide)
  rw [← spelled_core] at read
  cases begins : core text with
  | nil =>
    rw [begins, spelled_nil] at read
    cases read
  | cons c others =>
    rw [begins] at read
    obtain quote | isWord := isWordChar_of_core begins
    · rw [quote, spelled_quote] at read
      cases read
      have bare := spells.1
      rw [isQuoted] at bare
      split at bare <;> cases bare
    · refine ⟨c, others, rfl, isWord, ?_⟩
      rintro rfl
      rw [spelled_word isWord] at read
      cases read
      have folded : Text.foldCase "toolbarset" =
          Text.foldCase (String.ofList ('\\' :: others.takeWhile isWordChar)) :=
        Text.sameIgnoringCase_iff.mp spells.2
      simp only [Text.foldCase, String.toList_ofList, List.map_cons] at folded
      have first : Char.toLower 't' = Char.toLower '\\' := List.head_eq_of_cons_eq folded
      exact absurd first (by decide)

/-- Without the blocks of toolbars a text has the tokens outside them.

Proof: by induction on what is cut out, with what is left in front. What stands in front of a block is
read in the same way without it; anything else joins what is in front. -/
theorem spelled_withoutToolbars (file : String) {text front : List Char} {tokens : List Token}
    (reaches : Reaches (front ++ text) text) (inFront : spelled (front ++ text) = tokens ++ spelled text) :
    spelled (front ++ withoutToolbars file text) =
      tokens ++ Statement.outsideToolbars file (spelled text) := by
  fun_induction withoutToolbars file text generalizing front tokens with
  | case1 text none =>
    rw [inFront, spelled, none, List.map_nil, Statement.outsideToolbars]
  | case2 text token rest read inductionHypothesis =>
    have here : spelled text = token.unplaced :: rest.map unplaced := by
      rw [spelled, read, List.map_cons]
    have onward : spelled (behind (Statement.extent file token rest + 1) text) =
        (rest.map unplaced).drop (Statement.extent file token rest) := by
      rw [spelled_behind, here, List.drop_succ_cons]
    have same : Statement.opensToolbars token.unplaced = Statement.opensToolbars token := rfl
    rw [here, Statement.outsideToolbars, Statement.extent_unplaced, same, ← onward]
    cases opens : Statement.opensToolbars token with
    | true =>
      obtain ⟨c, others, begins, isWord, noBackslash⟩ := core_of_opensToolbars here opens
      obtain ⟨before, read, whole, reads⟩ :=
        (reaches.trans (reaches_core text)).splits begins isWord noBackslash
      have parts := upTo_append (reaches_core text).suffix
      have sameFront : before = front ++ upTo text (core text) := by
        rw [← List.append_left_inj (core text), ← whole, List.append_assoc, parts]
      have sameTokens : read = tokens := by
        have counted := reads (core text)
        rwa [← whole, inFront, spelled_core, List.append_left_inj, eq_comm] at counted
      have alone : spelled ([] ++ withoutToolbars file
          (behind (Statement.extent file token rest + 1) text)) =
            [] ++ Statement.outsideToolbars file
              (spelled (behind (Statement.extent file token rest + 1) text)) :=
        inductionHypothesis (.here _) rfl
      rw [if_pos rfl, if_pos rfl, ← List.append_assoc, ← sameFront, reads, sameTokens]
      exact congrArg _ alone
    | false =>
      have parts := upTo_append (reaches_behind (Statement.extent file token rest + 1) text).suffix
      rw [if_neg Bool.false_ne_true, if_neg Bool.false_ne_true, ← List.append_assoc,
        ← List.append_assoc]
      apply inductionHypothesis
      · rw [List.append_assoc, parts]
        exact reaches.trans (reaches_behind _ text)
      · rw [List.append_assoc, parts, inFront, here, onward, List.append_assoc, List.cons_append,
          List.take_append_drop]

/-- The text without the blocks of toolbars at its top level is read as the tokens outside them. -/
theorem ofText_withoutToolbars {file text : String} {outside inside : List Token}
    (topLevel : TopLevel file (ofText text) outside inside) :
    (ofText (String.ofList (withoutToolbars file text.toList))).map unplaced =
      outside.map unplaced := by
  have cut : spelled ([] ++ withoutToolbars file text.toList) =
      [] ++ Statement.outsideToolbars file (spelled text.toList) :=
    spelled_withoutToolbars file (.here text.toList) rfl
  have divided : Statement.outsideToolbars file (scan 1 text.toList) = outside :=
    topLevel.outsideToolbars_eq
  rw [List.nil_append, List.nil_append, spelled, spelled, Statement.outsideToolbars_unplaced,
    divided] at cut
  rwa [ofText, String.toList_ofList]

end Token

open Token in
/-- Blocks of toolbars have no part in what a file that includes nothing says: its registry is the one
of its text without these blocks. All that they can add are reports of quotes in them that nothing
closes, and only a stranded backslash leaves a quote in a closed block open. -/
theorem toolbars_add_only_open_quotes {system : FileSystem} {path text : String} {place : Location}
    {outside inside : List Token} (found : system.definitions path = .ok place)
    (stands : system.textAt place = .ok text)
    (topLevel : TopLevel (Location.path place) (ofText text) outside inside)
    (digest : ByteArray → String) :
    ∃ loaded, system.read digest path = .ok loaded ∧
      loaded.registry = (Registry.parse (Location.path place)
        (String.ofList (withoutToolbars (Location.path place) text.toList))).1 ∧
      (ofText (String.ofList (withoutToolbars (Location.path place) text.toList))).map unplaced =
        outside.map unplaced ∧
      (loaded.diagnostics = Diagnostic.ofTokens (Location.path place) outside ++
          Statement.problems (Statement.readFile (Location.path place) outside) ↔
        ∀ token ∈ inside, token.isUnclosed = false) ∧
      loaded.diagnostics = Diagnostic.ofTokens (Location.path place) (ofText text) ++
        Statement.problems (Statement.readFile (Location.path place) outside) ∧
      (Mode.outside.strands text.toList = false → ∀ token ∈ inside, token.isUnclosed = false) := by
  obtain ⟨contributed, reported, plain⟩ := topLevel.statements
  obtain ⟨loaded, read, registry, diagnostics⟩ :=
    FileSystem.read_of_plain found stands plain digest
  have cut := ofText_withoutToolbars topLevel
  rw [contributed] at registry
  rw [reported] at diagnostics
  refine ⟨loaded, read, ?_, cut, ?_, diagnostics, ?_⟩
  · rw [registry, ← Statement.contributions_readDefinition_unplaced, ← cut,
      Statement.contributions_readDefinition_unplaced]
    rfl
  · rw [diagnostics, List.append_left_inj]
    exact topLevel.ofTokens_eq_iff
  · intro kept token member
    by_contra unclosed
    have inFront := topLevel.mem_dropLast member (eq_true_of_ne_false unclosed)
    exact unclosed ((written_scan 1 text.toList kept).closed_dropLast token inFront)

/-- A file system with one definition. -/
def oneDefinition (text : String) : FileSystem where
  top := [("m.ui", .file text.toUTF8)]

section OneDefinition

theorem textAt_oneDefinition (text : String) : (oneDefinition text).textAt ["m.ui"] = .ok text :=
  FileSystem.textAt_of_file (by decide) rfl

theorem definitions_oneDefinition (text : String) :
    (oneDefinition text).definitions "/m.ui" = .ok ["m.ui"] := by
  have located : (oneDefinition text).locatedText (Location.path ["m.ui"]) = .ok (["m.ui"], text) :=
    FileSystem.locatedText_path (by decide) (by decide) rfl
  have resolved : (oneDefinition text).resolve .use (Location.path ["m.ui"]) = .ok ["m.ui"] :=
    (FileSystem.resolve_eq_locate (by decide)).trans
      (FileSystem.locatedText_eq_ok_iff.mp located).1
  have isPath : Location.path ["m.ui"] = "/m.ui" := by decide
  rw [isPath] at resolved
  rw [FileSystem.definitions, resolved]

/-- A block of toolbars with words of menus in it, in front of a block of menus. -/
def crowded : String :=
  "toolbarset menu toolbar menuset \"end\" end end\nmenuset menubar separator end end"

/-- The tokens of the block of toolbars, behind its keyword. -/
def crowdedBlock : List Token :=
  [⟨"menu", 1, .bare⟩, ⟨"toolbar", 1, .bare⟩, ⟨"menuset", 1, .bare⟩, ⟨"end", 1, .quoted⟩,
    ⟨"end", 1, .bare⟩, ⟨"end", 1, .bare⟩]

/-- The tokens of the block of menus, behind its keyword. -/
def crowdedMenus : List Token :=
  [⟨"menubar", 2, .bare⟩, ⟨"separator", 2, .bare⟩, ⟨"end", 2, .bare⟩, ⟨"end", 2, .bare⟩]

/-- The quoted `end` does not close the toolbar, and the first `end` does not close the block. -/
theorem toolbarBlock_crowded : ToolbarBlock crowdedBlock := by
  have last : ToolbarBlock [⟨"end", 1, .bare⟩] := .close (by decide)
  have toolbar : ToolbarBlock (⟨"toolbar", 1, .bare⟩ ::
      ([⟨"menuset", 1, .bare⟩, ⟨"end", 1, .quoted⟩] ++ ⟨"end", 1, .bare⟩ :: [⟨"end", 1, .bare⟩])) :=
    .toolbar (by decide) (by decide) (by decide) last
  exact .word (by decide) (by decide) toolbar

theorem topLevel_crowded : TopLevel (Location.path ["m.ui"]) (Token.ofText crowded)
    (⟨"menuset", 2, .bare⟩ :: crowdedMenus) (⟨"toolbarset", 1, .bare⟩ :: crowdedBlock) := by
  have read : Token.ofText crowded = ⟨"toolbarset", 1, .bare⟩ ::
      (crowdedBlock ++ ⟨"menuset", 2, .bare⟩ :: (crowdedMenus ++ [])) := by decide +kernel
  have menus : TopLevel (Location.path ["m.ui"]) (⟨"menuset", 2, .bare⟩ :: (crowdedMenus ++ []))
      (⟨"menuset", 2, .bare⟩ :: (crowdedMenus ++ [])) [] :=
    .menuset (by decide) (by decide +kernel) .finished
  have whole := TopLevel.toolbars (by decide : Token.Spells ⟨"toolbarset", 1, .bare⟩ "toolbarset")
    toolbarBlock_crowded menus
  rw [List.append_nil, List.append_nil] at whole
  rw [read, List.append_nil]
  exact whole

/-- A block of toolbars full of keywords leaves the block of menus behind it as it is. -/
theorem crowded_toolbars_add_nothing :
    ∃ loaded, (oneDefinition crowded).read (fun _ => "") "/m.ui" = .ok loaded ∧
      loaded.registry = { menubar := ⟨"", [.separator]⟩ } ∧ loaded.diagnostics = [] := by
  obtain ⟨loaded, read, registry, -, closed, -⟩ :=
    toolbars_add_only_open_quotes (definitions_oneDefinition crowded)
      (textAt_oneDefinition crowded) topLevel_crowded fun _ => ""
  refine ⟨loaded, read, ?_, ?_⟩
  · rw [registry]
    decide +kernel
  · rw [closed.mpr (by decide)]
    decide +kernel

/-- A block of toolbars with a quoted text that a backslash in front of a line end breaks off. -/
def brokenOff : String := "toolbarset \"a\\\n# \"\nend"

/-- The rest of the line is a word and a comment, and the `end` behind them closes the block. -/
theorem topLevel_brokenOff : TopLevel (Location.path ["m.ui"]) (Token.ofText brokenOff) []
    [⟨"toolbarset", 1, .bare⟩, ⟨"a", 1, .unclosed⟩, ⟨"\\", 1, .bare⟩, ⟨"end", 3, .bare⟩] := by
  have read : Token.ofText brokenOff =
      [⟨"toolbarset", 1, .bare⟩, ⟨"a", 1, .unclosed⟩, ⟨"\\", 1, .bare⟩, ⟨"end", 3, .bare⟩] := by
    decide +kernel
  have block : ToolbarBlock [⟨"a", 1, .unclosed⟩, ⟨"\\", 1, .bare⟩, ⟨"end", 3, .bare⟩] :=
    .word (by decide) (by decide) (.word (by decide) (by decide) (.close (by decide)))
  have opens : Token.Spells ⟨"toolbarset", 1, .bare⟩ "toolbarset" := by decide
  rw [read]
  exact .toolbars opens block .finished

/-- A quote that is broken off in a closed block of toolbars is reported, although nothing stands outside
the block. -/
theorem broken_off_quote_in_toolbars :
    ∃ inside loaded, TopLevel (Location.path ["m.ui"]) (Token.ofText brokenOff) [] inside ∧
      (oneDefinition brokenOff).read (fun _ => "") "/m.ui" = .ok loaded ∧
      loaded.registry = {} ∧ loaded.diagnostics = [.unclosedString "/m.ui" 1] := by
  obtain ⟨loaded, read, registry, diagnostics⟩ :=
    FileSystem.read_of_plain (definitions_oneDefinition brokenOff) (textAt_oneDefinition brokenOff)
      topLevel_brokenOff.statements.2.2 fun _ => ""
  refine ⟨_, loaded, topLevel_brokenOff, read, ?_, ?_⟩
  · rw [registry]
    decide +kernel
  · rw [diagnostics]
    decide +kernel

end OneDefinition

end Menus
