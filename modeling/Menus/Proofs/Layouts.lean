import Mathlib.Data.List.Chain
import Menus.Definition.Cursor

/-!
# Definition texts written from their tokens

A definition text can be laid out freely. Its tokens are words and quoted texts; between them, in
front of the first and behind the last, fillers may stand: blanks and comments, in any number. Only
two words in a row need one. A `Layout` holds tokens with such fillers and says what is written for
them, a backslash standing in front of every quote and backslash inside a quoted text.

Whatever the layout, reading what was written gives the tokens back, each with the number of the
line on which its first character stands, and nothing to report. The proof takes the scanner through
one piece of the layout at a time: each piece is consumed as a whole, whatever stands behind it, and
the line moves on by the line ends in it. Only behind a word something has to follow that ends it.
-/

namespace Menus

/-- What stands between tokens: a blank, or a comment with the end of its line. -/
inductive Filler where
  | blank (c : Char) (separates : Text.isBlank c = true)
  | comment (text : List Char) (oneLine : '\n' ∉ text)

/-- The characters of a filler. -/
def Filler.chars : Filler → List Char
  | blank c _ => [c]
  | comment text _ => '#' :: text ++ ['\n']

/-- The characters of a run of fillers. -/
def gap (fillers : List Filler) : List Char :=
  fillers.flatMap Filler.chars

/-- A token as it can be written: a word, which has characters and none that would end it, or any
text between quotes. -/
inductive Spelling where
  | word (letters : List Char) (nonempty : letters ≠ [])
      (plain : ∀ c ∈ letters, Text.isBlank c = false ∧ c ≠ '"' ∧ c ≠ '#')
  | quote (letters : List Char)

namespace Spelling

/-- The text of the token. -/
def letters : Spelling → List Char
  | word letters _ _ | quote letters => letters

/-- The form in which the token is written. -/
def form : Spelling → Token.Form
  | word .. => .bare
  | quote _ => .quoted

/-- The token is written without quotes. -/
def isWord (spelling : Spelling) : Bool := spelling.form == .bare

/-- A character as it is written between quotes. -/
def escaped (c : Char) : List Char :=
  if c = '"' ∨ c = '\\' then ['\\', c] else [c]

/-- What is written for the token. -/
def chars : Spelling → List Char
  | word letters _ _ => letters
  | quote letters => '"' :: letters.flatMap escaped ++ ['"']

end Spelling

/-- Of tokens behind the fillers in front of them, two words in a row have a filler between them. -/
def Divided (placed : List (List Filler × Spelling)) : Prop :=
  placed.IsChain fun before after =>
    before.2.isWord = true → after.2.isWord = true → after.1 ≠ []

instance (placed : List (List Filler × Spelling)) : Decidable (Divided placed) :=
  inferInstanceAs (Decidable (List.IsChain _ _))

/-- Tokens in order, each behind the fillers in front of it, and the fillers behind the last one. -/
structure Layout where
  placed : List (List Filler × Spelling)
  last : List Filler
  divided : Divided placed

namespace Layout

/-- What is written for tokens and the fillers in front of them. -/
def charsOf (placed : List (List Filler × Spelling)) : List Char :=
  placed.flatMap fun (fillers, spelling) => gap fillers ++ spelling.chars

/-- The text that is written. -/
def chars (layout : Layout) : List Char :=
  charsOf layout.placed ++ gap layout.last

/-- The tokens, each with the line on which its first character stands: one more than there are line
ends in what is written in front of it. -/
def tokens (layout : Layout) : List Token :=
  layout.placed.mapIdx fun index (fillers, spelling) =>
    { text := String.ofList spelling.letters
      line := 1 + (charsOf (layout.placed.take index) ++ gap fillers).count '\n'
      form := spelling.form }

end Layout

namespace Token

/-- A blank is passed over, and a line end starts the next line. -/
theorem scan_blank (line : Nat) {c : Char} (separates : Text.isBlank c = true) (rest : List Char) :
    scan line (c :: rest) = scan (line + [c].count '\n') rest := by
  rw [scan, if_pos separates]
  by_cases ends : c = '\n' <;> simp [ends]

/-- A comment is passed over up to the end of its line. -/
theorem scan_comment (line : Nat) (rest : List Char) :
    scan line ('#' :: rest) = scan line (rest.dropWhile (· ≠ '\n')) := by
  have noBlank : ¬Text.isBlank '#' = true := by decide
  rw [scan, if_neg noBlank, if_pos rfl]

/-- A quote begins a token that goes as far as the quoted text does. -/
theorem scan_quote (line : Nat) (rest : List Char) :
    scan line ('"' :: rest) =
      ⟨String.ofList (readQuoted rest).text, line,
          if (readQuoted rest).closed then .quoted else .unclosed⟩ ::
        scan (line + (readQuoted rest).text.count '\n') (readQuoted rest).rest := by
  have noBlank : ¬Text.isBlank '"' = true := by decide
  rw [scan, if_neg noBlank, if_neg (by decide), if_pos rfl]

/-- The characters of a word are those that words consist of. -/
theorem isWordChar_iff (c : Char) :
    isWordChar c = true ↔ Text.isBlank c = false ∧ c ≠ '"' ∧ c ≠ '#' := by
  simp [isWordChar, and_assoc]

/-- Any other character begins a word, which goes on as long as there are such characters. -/
theorem scan_word (line : Nat) {c : Char} (begins : isWordChar c = true) (rest : List Char) :
    scan line (c :: rest) =
      ⟨String.ofList (c :: rest.takeWhile isWordChar), line, .bare⟩ ::
        scan line (rest.dropWhile isWordChar) := by
  obtain ⟨noBlank, noQuote, noComment⟩ := (isWordChar_iff c).mp begins
  rw [scan, noBlank, if_neg Bool.false_ne_true, if_neg noComment, if_neg noQuote]

/-- A filler is passed over. -/
theorem scan_filler (line : Nat) (filler : Filler) (rest : List Char) :
    scan line (filler.chars ++ rest) = scan (line + filler.chars.count '\n') rest := by
  cases filler with
  | blank c separates => exact scan_blank line separates rest
  | comment text oneLine =>
    have skipped : (text ++ '\n' :: rest).dropWhile (· ≠ '\n') = '\n' :: rest := by
      rw [List.dropWhile_append_of_pos]
      · simp
      · intro c member
        simpa using fun ends : c = '\n' => oneLine (ends ▸ member)
    have none : text.count '\n' = 0 := List.count_eq_zero.mpr oneLine
    have written : Filler.chars (.comment text oneLine) ++ rest =
        '#' :: (text ++ '\n' :: rest) := by
      simp [Filler.chars]
    rw [written, scan_comment, skipped, scan_blank line (by decide) rest]
    simp [Filler.chars, none]

/-- Fillers are passed over, however many there are. -/
theorem scan_gap (line : Nat) (fillers : List Filler) (rest : List Char) :
    scan line (gap fillers ++ rest) = scan (line + (gap fillers).count '\n') rest := by
  induction fillers generalizing line with
  | nil => simp [gap]
  | cons filler others inductionHypothesis =>
    simp only [gap, List.flatMap_cons, List.append_assoc, List.count_append]
      at inductionHypothesis ⊢
    rw [scan_filler, inductionHypothesis, Nat.add_assoc]

/-- A quoted text is read back up to the quote that closes it. -/
theorem readQuoted_escaped (letters rest : List Char) :
    readQuoted (letters.flatMap Spelling.escaped ++ '"' :: rest) = ⟨letters, true, rest⟩ := by
  induction letters with
  | nil => rfl
  | cons c others inductionHypothesis =>
    rw [List.flatMap_cons, List.append_assoc]
    by_cases marked : c = '"' ∨ c = '\\'
    · have notLineEnd : c ≠ '\n' := by rcases marked with rfl | rfl <;> decide
      simp [Spelling.escaped, marked, readQuoted, notLineEnd, inductionHypothesis, Quoted.cons]
    · obtain ⟨noQuote, noBackslash⟩ := not_or.mp marked
      simp [Spelling.escaped, readQuoted, noQuote, noBackslash, inductionHypothesis, Quoted.cons]

/-- Between quotes there are as many line ends as in the text: none is written with a backslash. -/
theorem count_escaped (letters : List Char) :
    (letters.flatMap Spelling.escaped).count '\n' = letters.count '\n' := by
  induction letters with
  | nil => rfl
  | cons c others inductionHypothesis =>
    rw [List.flatMap_cons, List.count_append, inductionHypothesis, List.count_cons, Nat.add_comm]
    by_cases marked : c = '"' ∨ c = '\\'
    · rcases marked with rfl | rfl <;> rfl
    · simp [Spelling.escaped, marked, List.count_cons]

/-- What is written for a token is read as that token, if something that ends it stands behind a
word. -/
theorem scan_spelling (line : Nat) (spelling : Spelling) (rest : List Char)
    (ended : spelling.isWord = true → ∀ c ∈ rest.head?, isWordChar c = false) :
    scan line (spelling.chars ++ rest) =
      ⟨String.ofList spelling.letters, line, spelling.form⟩ ::
        scan (line + spelling.chars.count '\n') rest := by
  cases spelling with
  | word letters nonempty plain =>
    obtain ⟨c, others, rfl⟩ := List.exists_cons_of_ne_nil nonempty
    have begins : isWordChar c = true := (isWordChar_iff c).mpr (plain c List.mem_cons_self)
    have inside : ∀ d ∈ others, isWordChar d = true := fun d member =>
      (isWordChar_iff d).mpr (plain d (List.mem_cons_of_mem c member))
    have outside : rest.takeWhile isWordChar = [] ∧ rest.dropWhile isWordChar = rest := by
      cases rest with
      | nil => exact ⟨rfl, rfl⟩
      | cons d later => simp [ended rfl d rfl]
    have oneLine : (c :: others).count '\n' = 0 := by
      rw [List.count_eq_zero]
      intro member
      exact absurd (plain _ member).1 (by decide)
    rw [Spelling.chars, List.cons_append, scan_word line begins,
      List.takeWhile_append_of_pos inside, List.dropWhile_append_of_pos inside, outside.1, outside.2,
      List.append_nil, oneLine]
    rfl
  | quote letters =>
    have written : (Spelling.quote letters).chars ++ rest =
        '"' :: (letters.flatMap Spelling.escaped ++ '"' :: rest) := by
      simp [Spelling.chars]
    have lines : (Spelling.quote letters).chars.count '\n' = letters.count '\n' := by
      simp [Spelling.chars, count_escaped]
    rw [written, scan_quote, readQuoted_escaped, lines]
    rfl

/-- A run of fillers does not start with a character of a word. -/
theorem head?_gap (fillers : List Filler) : ∀ c ∈ (gap fillers).head?, isWordChar c = false := by
  intro c head
  cases fillers with
  | nil => cases head
  | cons filler others =>
    cases filler with
    | blank d separates =>
      cases head
      simp [isWordChar, separates]
    | comment text oneLine =>
      cases head
      decide

end Token

namespace Layout

/-- What stands behind a word in a layout ends it: a filler, a quote or the end of the text. -/
theorem head?_behind {first : List Filler × Spelling} {placed : List (List Filler × Spelling)}
    (last : List Filler) (divided : Divided (first :: placed)) (word : first.2.isWord = true) :
    ∀ c ∈ (charsOf placed ++ gap last).head?, Token.isWordChar c = false := by
  cases placed with
  | nil => exact Token.head?_gap last
  | cons second others =>
    obtain ⟨fillers, spelling⟩ := second
    have apart := (List.isChain_cons_cons.mp divided).1 word
    intro c head
    cases fillers with
    | cons filler later =>
      apply Token.head?_gap (filler :: later)
      cases filler <;> simpa [charsOf, gap, Filler.chars] using head
    | nil =>
      cases spelling with
      | word letters nonempty plain => exact absurd rfl (apart rfl)
      | quote letters =>
        cases head
        decide

/-- The tokens of a layout are read back from any line on.

Proof: by induction on the tokens. Fillers are passed over, the token is read, since what stands
behind a word ends it, and the line has moved on by the line ends of both. -/
theorem scan_charsOf (line : Nat) (placed : List (List Filler × Spelling)) (last : List Filler)
    (divided : Divided placed) :
    Token.scan line (charsOf placed ++ gap last) =
      placed.mapIdx fun index (fillers, spelling) =>
        { text := String.ofList spelling.letters
          line := line + (charsOf (placed.take index) ++ gap fillers).count '\n'
          form := spelling.form } := by
  induction placed generalizing line with
  | nil =>
    have passed := Token.scan_gap line last []
    rw [List.append_nil] at passed
    rw [charsOf, List.flatMap_nil, List.nil_append, passed, Token.scan]
    rfl
  | cons first others inductionHypothesis =>
    have ended := head?_behind last divided
    have written : charsOf (first :: others) ++ gap last =
        gap first.1 ++ (first.2.chars ++ (charsOf others ++ gap last)) := by
      simp [charsOf]
    rw [written, Token.scan_gap, Token.scan_spelling _ _ _ ended,
      inductionHypothesis _ divided.tail, List.mapIdx_cons]
    congr 1
    simp [charsOf, Nat.add_assoc]

/-- Every token of a layout is closed. -/
theorem isUnclosed_eq_false (layout : Layout) {token : Token} (member : token ∈ layout.tokens) :
    token.isUnclosed = false := by
  obtain ⟨index, inside, rfl⟩ := List.exists_of_mem_mapIdx member
  cases written : layout.placed[index].2 <;> simp [Token.isUnclosed, Spelling.form, written]

end Layout

/-- Whatever tokens are laid out, and however, reading the text gives them back in order: the text
of each, whether it was quoted, and the line of its first character. There is nothing to report. -/
theorem layouts_are_read_back (file : String) (layout : Layout) :
    Cursor.ofText file (String.ofList layout.chars) = { file, pending := layout.tokens } := by
  have read : Token.ofText (String.ofList layout.chars) = layout.tokens := by
    rw [Token.ofText, String.toList_ofList]
    exact Layout.scan_charsOf 1 layout.placed layout.last layout.divided
  have closed : layout.tokens.filter Token.isUnclosed = [] := by
    rw [List.filter_eq_nil_iff]
    intro token member
    simp [layout.isUnclosed_eq_false member]
  rw [Cursor.ofText, read, Diagnostic.ofTokens, closed]
  rfl

/-- A quoted text that starts right behind a word and goes over the end of the line, and a comment
that alone divides two words. -/
example :
    Layout.tokens
      { placed :=
          [([], .word ['a'] (by decide) (List.forall_mem_singleton.mpr (by decide))),
            ([], .quote ['"', '\n', '#']),
            ([.comment ['"'] (by decide)],
              .word ['\\'] (by decide) (List.forall_mem_singleton.mpr (by decide))),
            ([.comment [] (by decide)],
              .word ['b'] (by decide) (List.forall_mem_singleton.mpr (by decide)))]
        last := [.blank ' ' (by decide)]
        divided := by decide } =
      [⟨"a", 1, .bare⟩, ⟨"\"\n#", 1, .quoted⟩, ⟨"\\", 3, .bare⟩, ⟨"b", 4, .bare⟩] := by
  decide

end Menus
