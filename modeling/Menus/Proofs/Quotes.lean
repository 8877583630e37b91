import Mathlib.Data.List.TakeWhile
import Menus.Proofs.Concatenation

/-!
# Where quoted texts end

Between quotes a backslash takes the character behind it, whatever it is. So a quoted text ends at
the first quote that no backslash takes, or with the definition text, and at most one of them, the
last token, is never closed. That is how quotes are meant to be read, and `Written` says it as a
grammar, without the scanner.

The scanner keeps to it with one exception: a backslash takes no line end. Between quotes a
backslash in front of a line end is stranded, as is one behind which the text ends. There the
scanner leaves the quoted text, unclosed, and what is left of it is read as if it stood outside:
its words become tokens of their own, and the quote that was to close it opens another text. The
results below say that stranded backslashes are the only cause: without one the grammar describes
what is read, and with one it does not.
-/

namespace Menus

namespace Token

/-- What is written between quotes for a text: its characters as they are, or any character behind a
backslash. A quote or a backslash that is a part of the text stands behind one. -/
inductive Quotation : List Char → List Char → Prop
  | empty : Quotation [] []
  | plain {c : Char} {chars held : List Char} (noQuote : c ≠ '"') (noBackslash : c ≠ '\\')
      (rest : Quotation chars held) : Quotation (c :: chars) (c :: held)
  | taken (c : Char) {chars held : List Char} (rest : Quotation chars held) :
      Quotation ('\\' :: c :: chars) (c :: held)

/-- The tokens that are written by the characters from a line on. Blanks and comments write none. A
word and a comment go as far as they can, a quotation up to its quote, and one without such a quote to
the end of the text. A text that ends behind a backslash between quotes writes nothing at all: there
is no character for the backslash to take. -/
inductive Written : Nat → List Char → List Token → Prop
  | finished (line : Nat) : Written line [] []
  | blank {line : Nat} {c : Char} {rest : List Char} {tokens : List Token}
      (separates : Text.isBlank c = true)
      (onward : Written (line + [c].count '\n') rest tokens) : Written line (c :: rest) tokens
  | comment {line : Nat} {comment rest : List Char} {tokens : List Token}
      (oneLine : '\n' ∉ comment) (ended : ∀ c ∈ rest.head?, c = '\n')
      (onward : Written line rest tokens) : Written line ('#' :: comment ++ rest) tokens
  | word {line : Nat} {letters rest : List Char} {tokens : List Token} (nonempty : letters ≠ [])
      (plain : ∀ c ∈ letters, isWordChar c = true) (ended : ∀ c ∈ rest.head?, isWordChar c = false)
      (onward : Written line rest tokens) :
      Written line (letters ++ rest) (⟨String.ofList letters, line, .bare⟩ :: tokens)
  | quoted {line : Nat} {chars held rest : List Char} {tokens : List Token}
      (quotation : Quotation chars held)
      (onward : Written (line + chars.count '\n') rest tokens) :
      Written line ('"' :: chars ++ '"' :: rest) (⟨String.ofList held, line, .quoted⟩ :: tokens)
  | unclosed {line : Nat} {chars held : List Char} (quotation : Quotation chars held) :
      Written line ('"' :: chars) [⟨String.ofList held, line, .unclosed⟩]

/-- A character that the scanner reads between quotes neither as a quote nor behind a backslash is no
backslash. -/
theorem ne_backslash {c : Char} {rest : List Char}
    (noEscape : ∀ d others, c = '\\' → rest = d :: others → False)
    (noBackslash : c = '\\' → rest = [] → False) : c ≠ '\\' := by
  intro backslash
  cases rest with
  | nil => exact noBackslash backslash rfl
  | cons d others => exact noEscape d others backslash rfl

/-- What is read behind a quote is a quotation, up to the quote that closes it or else to a stranded
backslash or the end of the text. -/
theorem readQuoted_quotation (text : List Char) :
    ∃ chars, Quotation chars (readQuoted text).text ∧
      ((readQuoted text).closed = true ∧ text = chars ++ '"' :: (readQuoted text).rest ∨
        (readQuoted text).closed = false ∧ text = chars ++ (readQuoted text).rest ∧
          ∀ c rest, (readQuoted text).rest = c :: rest → c = '\\' ∧ ∀ d ∈ rest.head?, d = '\n') := by
  fun_induction readQuoted text with
  | case1 => exact ⟨[], .empty, .inr ⟨rfl, rfl, by simp⟩⟩
  | case2 rest => exact ⟨[], .empty, .inl ⟨rfl, rfl⟩⟩
  | case3 rest => exact ⟨[], .empty, .inr ⟨rfl, rfl, by simp⟩⟩
  | case4 c rest notLineEnd inductionHypothesis =>
    obtain ⟨chars, quotation, split⟩ := inductionHypothesis
    exact ⟨'\\' :: c :: chars, .taken c quotation, by simpa [Quoted.cons] using split⟩
  | case5 => exact ⟨[], .empty, .inr ⟨rfl, rfl, by simp⟩⟩
  | case6 c rest noQuote noEscape noBackslash inductionHypothesis =>
    obtain ⟨chars, quotation, split⟩ := inductionHypothesis
    exact ⟨c :: chars, .plain noQuote (ne_backslash noEscape noBackslash) quotation,
      by simpa [Quoted.cons] using split⟩

/-- Where the end of a piece of text is: outside quotes and comments, in a comment, between quotes,
or there behind a backslash that takes what comes next. -/
inductive Mode where
  | outside | comment | quoted | escaped
deriving DecidableEq, Repr

namespace Mode

/-- Where the text is behind one more character. -/
def next : Mode → Char → Mode
  | outside, c => if c = '"' then quoted else if c = '#' then comment else outside
  | comment, c => if c = '\n' then outside else comment
  | quoted, c => if c = '"' then outside else if c = '\\' then escaped else quoted
  | escaped, _ => quoted

/-- Where the text is behind a piece of it. -/
def after (mode : Mode) (text : List Char) : Mode := text.foldl next mode

/-- A text that goes on from there has a stranded backslash: one between quotes that takes something,
with a line end behind it or nothing at all. -/
def strands : Mode → List Char → Bool
  | mode, [] => mode == escaped
  | mode, c :: rest => mode == escaped && c == '\n' || strands (mode.next c) rest

@[simp] theorem after_nil (mode : Mode) : mode.after [] = mode := rfl

@[simp] theorem after_cons (mode : Mode) (c : Char) (rest : List Char) :
    mode.after (c :: rest) = (mode.next c).after rest := rfl

theorem after_append (mode : Mode) (front rest : List Char) :
    mode.after (front ++ rest) = (mode.after front).after rest :=
  List.foldl_append

/-- Only quotes and comments lead elsewhere. -/
theorem next_outside {c : Char} (noQuote : c ≠ '"') (noComment : c ≠ '#') :
    outside.next c = outside := by
  rw [next, if_neg noQuote, if_neg noComment]

/-- A character of a word stays outside. -/
theorem next_wordChar {c : Char} (inside : isWordChar c = true) : outside.next c = outside := by
  obtain ⟨-, noQuote, noComment⟩ := (isWordChar_iff c).mp inside
  exact next_outside noQuote noComment

/-- A blank stays outside. -/
theorem next_blank {c : Char} (separates : Text.isBlank c = true) : outside.next c = outside := by
  apply next_outside
  · rintro rfl
    exact absurd separates (by decide)
  · rintro rfl
    exact absurd separates (by decide)

/-- Between quotes, only a quote and a backslash lead elsewhere. -/
theorem next_quoted {c : Char} (noQuote : c ≠ '"') (noBackslash : c ≠ '\\') :
    quoted.next c = quoted := by
  rw [next, if_neg noQuote, if_neg noBackslash]

/-- Outside, a character that stays there strands nothing. -/
theorem strands_outside_cons {c : Char} (stays : outside.next c = outside) (rest : List Char) :
    outside.strands (c :: rest) = outside.strands rest := by
  rw [strands, stays]
  rfl

/-- Nothing is stranded in the rest of a word. -/
theorem strands_word (text : List Char) :
    outside.strands (text.dropWhile isWordChar) = outside.strands text := by
  induction text with
  | nil => rfl
  | cons c rest inductionHypothesis =>
    cases inside : isWordChar c with
    | true =>
      rw [List.dropWhile_cons_of_pos inside, inductionHypothesis,
        strands_outside_cons (next_wordChar inside)]
    | false => rw [List.dropWhile_cons_of_neg (Bool.not_eq_true _ ▸ inside)]

/-- Nothing is stranded in a comment. -/
theorem strands_comment (text : List Char) :
    outside.strands (text.dropWhile (· ≠ '\n')) = comment.strands text := by
  induction text with
  | nil => rfl
  | cons c rest inductionHypothesis =>
    by_cases ends : c = '\n'
    · subst ends
      rfl
    · have stays : comment.next c = comment := if_neg ends
      rw [List.dropWhile_cons_of_pos (by simp [ends]), inductionHypothesis, strands, stays]
      rfl

/-- Between quotes, a backslash is stranded before the closing quote exactly if the scanner leaves
something of an unclosed text. -/
theorem strands_quoted (text : List Char) :
    quoted.strands text = if (readQuoted text).closed then outside.strands (readQuoted text).rest
      else !(readQuoted text).rest.isEmpty := by
  fun_induction readQuoted text with
  | case1 | case2 | case3 | case5 => rfl
  | case4 c rest notLineEnd inductionHypothesis =>
    have passes : quoted.strands ('\\' :: c :: rest) = quoted.strands rest := by
      simp [strands, next, notLineEnd]
    rw [passes, inductionHypothesis]
    rfl
  | case6 c rest noQuote noEscape noBackslash inductionHypothesis =>
    rw [strands, next_quoted noQuote (ne_backslash noEscape noBackslash)]
    exact inductionHypothesis

end Mode

/-- The line that a character leads to. -/
theorem line_behind (line : Nat) (c : Char) :
    (if c = '\n' then line + 1 else line) = line + [c].count '\n' := by
  by_cases ends : c = '\n' <;> simp [ends]

/-- There are as many line ends in a quotation as in the text it is written for. -/
theorem Quotation.count_eq {chars held : List Char} (quotation : Quotation chars held) :
    chars.count '\n' = held.count '\n' := by
  induction quotation with
  | empty => rfl
  | plain noQuote noBackslash rest inductionHypothesis =>
    rw [List.count_cons, List.count_cons, inductionHypothesis]
  | taken c rest inductionHypothesis =>
    rw [List.count_cons_of_ne (by decide), List.count_cons, List.count_cons, inductionHypothesis]

/-- What is left where taking stops does not start with something to be taken. -/
theorem head?_dropWhile {p : Char → Bool} {text : List Char} :
    ∀ c ∈ (text.dropWhile p).head?, p c = false := by
  intro c head
  have stopped := List.head?_dropWhile_not p text
  rwa [Option.mem_def.mp head] at stopped

/-- A word consists of the characters that words consist of. -/
theorem plain_word {c : Char} (begins : isWordChar c = true) (rest : List Char) :
    ∀ d ∈ c :: rest.takeWhile isWordChar, isWordChar d = true :=
  List.forall_mem_cons.mpr ⟨begins, fun _ member => List.mem_takeWhile_imp member⟩

/-- Without a stranded backslash the tokens read are those that are written.

Proof: by induction along the scanner, whose cases are those of the grammar. A quoted text that is
not closed holds all that is left, since behind it nothing but a stranded backslash can stand. -/
theorem written_scan (line : Nat) (text : List Char) (kept : Mode.outside.strands text = false) :
    Written line text (scan line text) := by
  fun_induction scan line text with
  | case1 line => exact .finished line
  | case2 line c rest separates inductionHypothesis =>
    rw [Mode.strands_outside_cons (Mode.next_blank separates)] at kept
    have onward : Written (line + [c].count '\n') rest (scan (line + [c].count '\n') rest) := by
      simpa only [dite_eq_ite, line_behind] using inductionHypothesis kept
    rw [line_behind]
    exact .blank separates onward
  | case3 line rest noBlank inductionHypothesis =>
    have same : Mode.outside.strands ('#' :: rest) =
        Mode.outside.strands (rest.dropWhile (· ≠ '\n')) := (Mode.strands_comment rest).symm
    have oneLine : '\n' ∉ rest.takeWhile (· ≠ '\n') := by
      intro member
      simpa using List.mem_takeWhile_imp member
    have ended : ∀ c ∈ (rest.dropWhile (· ≠ '\n')).head?, c = '\n' := by
      intro c head
      simpa using head?_dropWhile c head
    have written := Written.comment oneLine ended (inductionHypothesis (same ▸ kept))
    rwa [List.cons_append, List.takeWhile_append_dropWhile] at written
  | case4 line rest quoted noBlank noComment inductionHypothesis =>
    have inside : Mode.quoted.strands rest = false := kept
    rw [Mode.strands_quoted] at inside
    obtain ⟨chars, quotation, ⟨closed, split⟩ | ⟨opened, split, -⟩⟩ := readQuoted_quotation rest
    · rw [if_pos closed] at inside
      have onward := inductionHypothesis inside
      rw [← quotation.count_eq] at onward ⊢
      have written := Written.quoted quotation onward
      rw [List.cons_append, ← split] at written
      rw [closed]
      exact written
    · rw [opened, if_neg Bool.false_ne_true] at inside
      have finished : (readQuoted rest).rest = [] := by simpa using inside
      rw [finished, List.append_nil] at split
      rw [opened, finished, split, scan]
      exact .unclosed quotation
  | case5 line c rest noBlank noComment noQuote inductionHypothesis =>
    have begins : isWordChar c = true :=
      (isWordChar_iff c).mpr ⟨Bool.not_eq_true _ ▸ noBlank, noQuote, noComment⟩
    rw [Mode.strands_outside_cons (Mode.next_wordChar begins), ← Mode.strands_word] at kept
    have written := Written.word (List.cons_ne_nil _ _) (plain_word begins rest) head?_dropWhile
      (inductionHypothesis kept)
    rwa [List.cons_append, List.takeWhile_append_dropWhile] at written

/-- A piece that is taken as a whole, up to what stops there. -/
theorem takeWhile_exact {p : Char → Bool} {piece rest : List Char} (inside : ∀ c ∈ piece, p c = true)
    (ended : ∀ c ∈ rest.head?, p c = false) :
    (piece ++ rest).takeWhile p = piece ∧ (piece ++ rest).dropWhile p = rest := by
  rw [List.takeWhile_append_of_pos inside, List.dropWhile_append_of_pos inside]
  cases rest with
  | nil => simp
  | cons c later => simp [ended c rfl]

/-- A quotation in which nothing is stranded is read as what it is written for. -/
theorem Quotation.readQuoted_append {chars held : List Char} (quotation : Quotation chars held)
    {rest : List Char} (kept : Mode.quoted.strands (chars ++ rest) = false) :
    readQuoted (chars ++ rest) =
        { readQuoted rest with text := held ++ (readQuoted rest).text } ∧
      Mode.quoted.strands rest = false := by
  induction quotation with
  | empty => exact ⟨rfl, kept⟩
  | plain noQuote noBackslash quotation inductionHypothesis =>
    rw [List.cons_append, Mode.strands, Mode.next_quoted noQuote noBackslash] at kept
    obtain ⟨read, onward⟩ := inductionHypothesis kept
    rw [List.cons_append, readQuoted_cons noQuote noBackslash, read]
    exact ⟨rfl, onward⟩
  | @taken c chars held quotation inductionHypothesis =>
    obtain ⟨notLineEnd, kept⟩ :
        c ≠ '\n' ∧ Mode.quoted.strands (chars ++ rest) = false := by
      simpa [Mode.strands, Mode.next] using kept
    obtain ⟨read, onward⟩ := inductionHypothesis kept
    rw [List.cons_append, List.cons_append, readQuoted, if_neg notLineEnd, read]
    exact ⟨rfl, onward⟩

/-- Without a stranded backslash, what is written is what is read.

Proof: by induction on the grammar. Each piece is read as a whole, because it goes as far as it
can, and nothing is stranded behind it. -/
theorem Written.eq_scan {line : Nat} {text : List Char} {tokens : List Token}
    (written : Written line text tokens) (kept : Mode.outside.strands text = false) :
    tokens = scan line text := by
  induction written with
  | finished line => rw [scan]
  | blank separates onward inductionHypothesis =>
    rw [Mode.strands_outside_cons (Mode.next_blank separates)] at kept
    rw [scan_blank _ separates, inductionHypothesis kept]
  | @comment line comment rest tokens oneLine ended onward inductionHypothesis =>
    have inside : ∀ c ∈ comment, decide (c ≠ '\n') = true := fun c member =>
      decide_eq_true fun ends => oneLine (ends ▸ member)
    have stops : ∀ c ∈ rest.head?, decide (c ≠ '\n') = false := fun c head => by
      simpa using ended c head
    have left := (takeWhile_exact inside stops).2
    have same : Mode.outside.strands rest = Mode.outside.strands ('#' :: comment ++ rest) :=
      (congrArg Mode.outside.strands left).symm.trans (Mode.strands_comment _)
    rw [List.cons_append, scan_comment, left, inductionHypothesis (same ▸ kept)]
  | @word line letters rest tokens nonempty plain ended onward inductionHypothesis =>
    obtain ⟨c, others, rfl⟩ := List.exists_cons_of_ne_nil nonempty
    obtain ⟨begins, inside⟩ := List.forall_mem_cons.mp plain
    obtain ⟨taken, left⟩ := takeWhile_exact inside ended
    rw [List.cons_append, Mode.strands_outside_cons (Mode.next_wordChar begins),
      ← Mode.strands_word, left] at kept
    rw [List.cons_append, scan_word line begins, taken, left, inductionHypothesis kept]
  | @quoted line chars held rest tokens quotation onward inductionHypothesis =>
    have inside : Mode.quoted.strands (chars ++ '"' :: rest) = false := kept
    obtain ⟨read, behind⟩ := quotation.readQuoted_append inside
    have closed : readQuoted ('"' :: rest) = ⟨[], true, rest⟩ := rfl
    rw [closed, List.append_nil] at read
    rw [List.cons_append, scan_quote, read, inductionHypothesis behind, quotation.count_eq]
    rfl
  | @unclosed line chars held quotation =>
    have inside : Mode.quoted.strands (chars ++ []) = false := by rwa [List.append_nil]
    obtain ⟨read, -⟩ := quotation.readQuoted_append inside
    have finished : readQuoted [] = ⟨[], false, []⟩ := rfl
    rw [finished, List.append_nil, List.append_nil] at read
    rw [scan_quote, read, scan]
    rfl

/-- A closed token may stand in front of tokens of which only the last one can be unclosed. -/
theorem closed_dropLast_cons {first : Token} {tokens : List Token}
    (closed : first.isUnclosed = false)
    (others : ∀ token ∈ tokens.dropLast, token.isUnclosed = false) :
    ∀ token ∈ (first :: tokens).dropLast, token.isUnclosed = false := by
  cases tokens with
  | nil => simp
  | cons second later =>
    rw [List.dropLast_cons_cons]
    exact List.forall_mem_cons.mpr ⟨closed, others⟩

/-- Of the tokens that are written only the last one can be unclosed. -/
theorem Written.closed_dropLast {line : Nat} {text : List Char} {tokens : List Token}
    (written : Written line text tokens) :
    ∀ token ∈ tokens.dropLast, token.isUnclosed = false := by
  induction written with
  | finished | unclosed => simp
  | blank separates onward inductionHypothesis => exact inductionHypothesis
  | comment oneLine ended onward inductionHypothesis => exact inductionHypothesis
  | word nonempty plain ended onward inductionHypothesis =>
    exact closed_dropLast_cons rfl inductionHypothesis
  | quoted quotation onward inductionHypothesis =>
    exact closed_dropLast_cons rfl inductionHypothesis

/-- The first quote of a text that nothing closes: what stands in front of it and behind it, and the
tokens in front of it. -/
structure OpenQuote (line : Nat) (text front body : List Char) (before : List Token) : Prop where
  stands : text = front ++ '"' :: body
  opens : Mode.outside.after front = .outside
  closed : ∀ token ∈ before, token.isUnclosed = false
  unclosed : (readQuoted body).closed = false
  strands : Mode.outside.strands text = Mode.quoted.strands body
  read : scan line text = before ++ scan (line + front.count '\n') ('"' :: body)

/-- Every quote of a text is closed, and nothing is stranded, or there is a first one that is not. -/
def Settled (line : Nat) (text : List Char) : Prop :=
  ((∀ token ∈ scan line text, token.isUnclosed = false) ∧ Mode.outside.strands text = false) ∨
    ∃ front body before, OpenQuote line text front body before

/-- What stands in front does not matter, if it is read as closed tokens and leaves quotes and
comments. -/
theorem Settled.behind {line behind : Nat} {rest : List Char} (piece : List Char)
    (tokens : List Token) (settled : Settled behind rest) (lines : behind = line + piece.count '\n')
    (read : scan line (piece ++ rest) = tokens ++ scan behind rest)
    (closed : ∀ token ∈ tokens, token.isUnclosed = false)
    (leaves : ∀ front body, rest = front ++ '"' :: body →
      Mode.outside.after (piece ++ front) = Mode.outside.after front)
    (strands : Mode.outside.strands (piece ++ rest) = Mode.outside.strands rest) :
    Settled line (piece ++ rest) := by
  rcases settled with ⟨others, kept⟩ | ⟨front, body, before, first⟩
  · left
    rw [read, strands]
    exact ⟨List.forall_mem_append.mpr ⟨closed, others⟩, kept⟩
  · right
    refine ⟨piece ++ front, body, tokens ++ before, ?_⟩
    exact
      { stands := by rw [first.stands, List.append_assoc]
        opens := (leaves front body first.stands).trans first.opens
        closed := List.forall_mem_append.mpr ⟨closed, first.closed⟩
        unclosed := first.unclosed
        strands := strands.trans first.strands
        read := by
          rw [read, first.read, lines, List.count_append, List.append_assoc, Nat.add_assoc] }

/-- A comment reaches to a line end, and a quote behind it has that line end in front of it. -/
theorem after_comment (text : List Char) {front body : List Char}
    (rest : text.dropWhile (· ≠ '\n') = front ++ '"' :: body) :
    Mode.comment.after (text.takeWhile (· ≠ '\n') ++ front) = Mode.outside.after front := by
  induction text with
  | nil => simp at rest
  | cons c others inductionHypothesis =>
    by_cases ends : c = '\n'
    · subst ends
      cases front with
      | nil => simp at rest
      | cons d later =>
        obtain ⟨rfl, -⟩ : '\n' = d ∧ _ := by simpa using rest
        rfl
    · rw [List.dropWhile_cons_of_pos (by simp [ends])] at rest
      have stays : Mode.comment.next c = .comment := if_neg ends
      rw [List.takeWhile_cons_of_pos (by simp [ends]), List.cons_append, Mode.after_cons, stays,
        inductionHypothesis rest]

/-- A word is left at its end. -/
theorem after_word {letters : List Char} (plain : ∀ c ∈ letters, isWordChar c = true) :
    Mode.outside.after letters = .outside := by
  induction letters with
  | nil => rfl
  | cons c rest inductionHypothesis =>
    obtain ⟨inside, others⟩ := List.forall_mem_cons.mp plain
    rw [Mode.after_cons, Mode.next_wordChar inside, inductionHypothesis others]

/-- A quotation stays between quotes. -/
theorem Quotation.after_eq {chars held : List Char} (quotation : Quotation chars held) :
    Mode.quoted.after chars = .quoted := by
  induction quotation with
  | empty => rfl
  | plain noQuote noBackslash rest inductionHypothesis =>
    rw [Mode.after_cons, Mode.next_quoted noQuote noBackslash, inductionHypothesis]
  | taken c rest inductionHypothesis => exact inductionHypothesis

/-- A text behind a blank is settled with it. -/
theorem Settled.behind_blank {line : Nat} {c : Char} {rest : List Char}
    (separates : Text.isBlank c = true) (settled : Settled (line + [c].count '\n') rest) :
    Settled line (c :: rest) := by
  have stays := Mode.next_blank separates
  refine settled.behind [c] [] rfl (scan_blank line separates rest) (by simp)
    ?_ (Mode.strands_outside_cons stays rest)
  intro front body _
  rw [List.singleton_append, Mode.after_cons, stays]

/-- A text behind a comment is settled with it. -/
theorem Settled.behind_comment {line : Nat} {rest : List Char}
    (settled : Settled line (rest.dropWhile (· ≠ '\n'))) : Settled line ('#' :: rest) := by
  have whole : '#' :: rest =
      ('#' :: rest.takeWhile (· ≠ '\n')) ++ rest.dropWhile (· ≠ '\n') := by
    rw [List.cons_append, List.takeWhile_append_dropWhile]
  have oneLine : ('#' :: rest.takeWhile (· ≠ '\n')).count '\n' = 0 := by
    rw [List.count_eq_zero]
    intro member
    simpa using List.mem_takeWhile_imp ((List.mem_cons.mp member).resolve_left (by decide))
  rw [whole]
  refine settled.behind _ [] (by rw [oneLine]; rfl) ?_ (by simp) ?_ ?_
  · rw [← whole, scan_comment]
    rfl
  · intro front body split
    exact after_comment rest split
  · rw [← whole]
    exact (Mode.strands_comment rest).symm

/-- A text behind a closed quotation is settled with it. -/
theorem Settled.behind_quotation {line : Nat} {chars rest : List Char}
    (quotation : Quotation chars (readQuoted rest).text) (closed : (readQuoted rest).closed = true)
    (split : rest = chars ++ '"' :: (readQuoted rest).rest)
    (settled : Settled (line + (readQuoted rest).text.count '\n') (readQuoted rest).rest) :
    Settled line ('"' :: rest) := by
  have whole : '"' :: rest = ('"' :: chars ++ ['"']) ++ (readQuoted rest).rest := by
    simp [← split]
  have lines : ('"' :: chars ++ ['"']).count '\n' = (readQuoted rest).text.count '\n' := by
    simp [quotation.count_eq]
  have leaves : Mode.outside.after ('"' :: chars ++ ['"']) = .outside := by
    rw [Mode.after_append]
    exact congrArg (Mode.next · '"') quotation.after_eq
  have inside : Mode.outside.strands ('"' :: rest) = Mode.quoted.strands rest := rfl
  rw [whole]
  refine settled.behind _ [⟨String.ofList (readQuoted rest).text, line, .quoted⟩]
    (by rw [lines]) ?_ ?_ ?_ ?_
  · rw [← whole, scan_quote, closed]
    rfl
  · intro token member
    cases List.mem_singleton.mp member
    rfl
  · intro front body _
    rw [Mode.after_append, leaves]
  · rw [← whole, inside, Mode.strands_quoted, if_pos closed]

/-- A text behind a word is settled with it. -/
theorem Settled.behind_word {line : Nat} {c : Char} {rest : List Char}
    (begins : isWordChar c = true) (settled : Settled line (rest.dropWhile isWordChar)) :
    Settled line (c :: rest) := by
  have whole : c :: rest = (c :: rest.takeWhile isWordChar) ++ rest.dropWhile isWordChar := by
    rw [List.cons_append, List.takeWhile_append_dropWhile]
  have plain := plain_word begins rest
  have oneLine : (c :: rest.takeWhile isWordChar).count '\n' = 0 := by
    rw [List.count_eq_zero]
    intro member
    exact absurd (plain _ member) (by decide)
  rw [whole]
  refine settled.behind _ [⟨String.ofList (c :: rest.takeWhile isWordChar), line, .bare⟩]
    (by rw [oneLine]; rfl) ?_ ?_ ?_ ?_
  · rw [← whole, scan_word line begins]
    rfl
  · intro token member
    cases List.mem_singleton.mp member
    rfl
  · intro front body _
    rw [Mode.after_append, after_word plain]
  · rw [← whole, Mode.strands_outside_cons (Mode.next_wordChar begins), Mode.strands_word]

/-- Every text is settled.

Proof: by induction along the scanner. A blank, a comment, a word and a closed quotation stand in
front of what is settled already. A quote that nothing closes is what is looked for. -/
theorem settled (line : Nat) (text : List Char) : Settled line text := by
  fun_induction scan line text with
  | case1 line => exact .inl ⟨by simp [scan], rfl⟩
  | case2 line c rest separates inductionHypothesis =>
    apply Settled.behind_blank separates
    simpa only [dite_eq_ite, line_behind] using inductionHypothesis
  | case3 line rest noBlank inductionHypothesis => exact inductionHypothesis.behind_comment
  | case4 line rest quoted noBlank noComment inductionHypothesis =>
    obtain ⟨chars, quotation, ⟨closed, split⟩ | ⟨opened, -⟩⟩ := readQuoted_quotation rest
    · exact .behind_quotation quotation closed split inductionHypothesis
    · exact .inr ⟨[], rest, [], rfl, rfl, by simp, opened, rfl, rfl⟩
  | case5 line c rest noBlank noComment noQuote inductionHypothesis =>
    have begins : isWordChar c = true :=
      (isWordChar_iff c).mpr ⟨Bool.not_eq_true _ ▸ noBlank, noQuote, noComment⟩
    exact inductionHypothesis.behind_word begins

/-- The tokens of a text that is broken off at a stranded backslash: closed ones, the quotation up to
that backslash as an unclosed one, and then what is read from the backslash on. -/
inductive BrokenOff (line : Nat) (text : List Char) (tokens : List Token) : Prop
  | intro {front chars held behind : List Char} {before : List Token}
      (stands : text = front ++ '"' :: (chars ++ '\\' :: behind))
      (opens : Mode.outside.after front = .outside) (quotation : Quotation chars held)
      (strands : ∀ c ∈ behind.head?, c = '\n')
      (closed : ∀ token ∈ before, token.isUnclosed = false)
      (read : tokens = before ++ ⟨String.ofList held, line + front.count '\n', .unclosed⟩ ::
        scan (line + (front ++ chars).count '\n') ('\\' :: behind))

/-- A quote that nothing closes leaves a token that holds the text up to a stranded backslash, or all
of it if there is none. -/
theorem OpenQuote.exists_quotation {line : Nat} {text front body : List Char} {before : List Token}
    (first : OpenQuote line text front body before) :
    ∃ chars held rest, text = front ++ '"' :: (chars ++ rest) ∧ Quotation chars held ∧
      Mode.outside.strands text = !rest.isEmpty ∧
      (∀ c behind, rest = c :: behind → c = '\\' ∧ ∀ d ∈ behind.head?, d = '\n') ∧
      scan line text = before ++ ⟨String.ofList held, line + front.count '\n', .unclosed⟩ ::
        scan (line + (front ++ chars).count '\n') rest := by
  obtain ⟨chars, quotation, ⟨closed, -⟩ | ⟨-, split, left⟩⟩ := readQuoted_quotation body
  · rw [first.unclosed] at closed
    cases closed
  · refine ⟨chars, _, (readQuoted body).rest, ?_, quotation, ?_, left, ?_⟩
    · rw [first.stands, ← split]
    · rw [first.strands, Mode.strands_quoted, first.unclosed, if_neg Bool.false_ne_true]
    · rw [first.read, scan_quote, first.unclosed, List.count_append, quotation.count_eq,
        Nat.add_assoc]
      rfl

/-- A stranded backslash breaks a quoted text off. -/
theorem brokenOff_scan (line : Nat) {text : List Char}
    (stranded : Mode.outside.strands text = true) : BrokenOff line text (scan line text) := by
  obtain ⟨-, kept⟩ | ⟨front, body, before, first⟩ := settled line text
  · rw [kept] at stranded
    cases stranded
  · obtain ⟨chars, held, rest, stands, quotation, strands, left, read⟩ := first.exists_quotation
    cases rest with
    | nil =>
      rw [strands] at stranded
      cases stranded
    | cons c behind =>
      obtain ⟨rfl, ends⟩ := left c behind rfl
      exact .intro stands first.opens quotation ends first.closed read

/-- Behind a text that is broken off there is another token, the word that the backslash begins. -/
theorem BrokenOff.unclosed_inside {line : Nat} {text : List Char} {tokens : List Token}
    (brokenOff : BrokenOff line text tokens) :
    ∃ token ∈ tokens.dropLast, token.isUnclosed = true := by
  obtain ⟨stands, opens, quotation, strands, closed, read⟩ := brokenOff
  have begins : isWordChar '\\' = true := by decide
  rw [read, scan_word _ begins, List.dropLast_append_cons, List.dropLast_cons_cons]
  exact ⟨_, List.mem_append_right _ List.mem_cons_self, rfl⟩

/-- If only the last token is unclosed, no backslash is stranded. -/
theorem kept_of_closed_dropLast {line : Nat} {text : List Char}
    (closed : ∀ token ∈ (scan line text).dropLast, token.isUnclosed = false) :
    Mode.outside.strands text = false := by
  by_contra stranded
  obtain ⟨token, member, unclosed⟩ :=
    (brokenOff_scan line (eq_true_of_ne_false stranded)).unclosed_inside
  rw [closed token member] at unclosed
  cases unclosed

end Token

/-- Every quote is closed and nothing is reported, or the first one that is not is the only one: its
token is the last one and holds everything behind the quote, and the quote is what is reported. -/
inductive Cursor.OpenAtEnd (cursor : Cursor) (text : List Char) : Prop
  | closed (closed : ∀ token ∈ cursor.pending, token.isUnclosed = false)
      (reported : cursor.diagnostics = [])
  | unclosed {front chars held : List Char} {before : List Token}
      (stands : text = front ++ '"' :: chars) (opens : Token.Mode.outside.after front = .outside)
      (quotation : Token.Quotation chars held)
      (closed : ∀ token ∈ before, token.isUnclosed = false)
      (read : cursor.pending =
        before ++ [⟨String.ofList held, 1 + front.count '\n', .unclosed⟩])
      (reported : cursor.diagnostics = [.unclosedString cursor.file (1 + front.count '\n')])

/-- Closed tokens leave nothing to report. -/
theorem Diagnostic.ofTokens_closed (file : String) {tokens : List Token}
    (closed : ∀ token ∈ tokens, token.isUnclosed = false) : ofTokens file tokens = [] := by
  have none : tokens.filter Token.isUnclosed = [] := by simpa using closed
  rw [ofTokens, none]
  rfl

/-- Only the last token can be unclosed if it holds everything behind the quote. -/
theorem Cursor.OpenAtEnd.closed_dropLast {cursor : Cursor} {text : List Char}
    (openAtEnd : cursor.OpenAtEnd text) :
    ∀ token ∈ cursor.pending.dropLast, token.isUnclosed = false := by
  cases openAtEnd with
  | closed closed reported =>
    exact fun token member => closed token (List.dropLast_subset _ member)
  | unclosed stands opens quotation closed read reported =>
    rw [read, List.dropLast_concat]
    exact closed

/-- Without a stranded backslash only the end of the text leaves a quote unclosed. -/
theorem Cursor.openAtEnd_ofText (file : String) {text : String}
    (kept : Token.Mode.outside.strands text.toList = false) :
    (ofText file text).OpenAtEnd text.toList := by
  obtain ⟨closed, -⟩ | ⟨front, body, before, first⟩ := Token.settled 1 text.toList
  · exact .closed closed (Diagnostic.ofTokens_closed file closed)
  · obtain ⟨chars, held, rest, stands, quotation, strands, -, read⟩ := first.exists_quotation
    cases rest with
    | nil =>
      rw [Token.scan] at read
      have reported : Diagnostic.ofTokens file (Token.ofText text) =
          [.unclosedString file (1 + front.count '\n')] := by
        have none := Diagnostic.ofTokens_closed file first.closed
        rw [Diagnostic.ofTokens] at none ⊢
        rw [Token.ofText, read, List.filter_append, List.map_append, none]
        rfl
      rw [List.append_nil] at stands
      exact .unclosed stands first.opens quotation first.closed read reported
    | cons c behind =>
      rw [strands] at kept
      cases kept

/-- Quoted texts are read as they are written, up to stranded backslashes: a text without one has the
tokens that the grammar gives it, and at most its last quote is left unclosed, with everything behind
it in one token and one report. A text with one has neither. There the quoted text ends unclosed in
front of the backslash, and reading goes on with the backslash as if outside quotes. -/
theorem quotes_break_only_at_stranded_backslashes (file text : String) :
    (Token.Mode.outside.strands text.toList = false ↔
      ∀ tokens, Token.Written 1 text.toList tokens ↔ tokens = (Cursor.ofText file text).pending) ∧
    (Token.Mode.outside.strands text.toList = false ↔
      (Cursor.ofText file text).OpenAtEnd text.toList) ∧
    (Token.Mode.outside.strands text.toList = true ↔
      Token.BrokenOff 1 text.toList (Cursor.ofText file text).pending) := by
  refine ⟨⟨fun kept tokens => ⟨fun written => written.eq_scan kept, ?_⟩, fun written => ?_⟩,
    ⟨Cursor.openAtEnd_ofText file, fun openAtEnd => ?_⟩,
    ⟨Token.brokenOff_scan 1, fun brokenOff => ?_⟩⟩
  · rintro rfl
    exact Token.written_scan 1 text.toList kept
  · exact Token.kept_of_closed_dropLast ((written _).mpr rfl).closed_dropLast
  · exact Token.kept_of_closed_dropLast openAtEnd.closed_dropLast
  · by_contra kept
    obtain ⟨token, member, unclosed⟩ := brokenOff.unclosed_inside
    have written := Token.written_scan 1 text.toList (eq_false_of_ne_true kept)
    rw [written.closed_dropLast token member] at unclosed
    cases unclosed

/-- A text over two lines, with a backslash at the end of the first one, is closed at its second quote
by the grammar. It is broken off, and the quote opens a second text. -/
theorem backslash_before_line_end_breaks_quote :
    Token.Written 1 "\"a\\\nb\" c".toList [⟨"a\nb", 1, .quoted⟩, ⟨"c", 2, .bare⟩] ∧
      Cursor.ofText "t.ui" "\"a\\\nb\" c" =
        { file := "t.ui"
          pending := [⟨"a", 1, .unclosed⟩, ⟨"\\", 1, .bare⟩, ⟨"b", 2, .bare⟩, ⟨" c", 2, .unclosed⟩]
          diagnostics := [.unclosedString "t.ui" 1, .unclosedString "t.ui" 2] } ∧
      ¬(Cursor.ofText "t.ui" "\"a\\\nb\" c").OpenAtEnd "\"a\\\nb\" c".toList := by
  have tokens : Token.ofText "\"a\\\nb\" c" =
      [⟨"a", 1, .unclosed⟩, ⟨"\\", 1, .bare⟩, ⟨"b", 2, .bare⟩, ⟨" c", 2, .unclosed⟩] := by
    decide +kernel
  refine ⟨?_, ?_, fun openAtEnd => ?_⟩
  · have quotation : Token.Quotation ['a', '\\', '\n', 'b'] ['a', '\n', 'b'] :=
      .plain (by decide) (by decide) (.taken '\n' (.plain (by decide) (by decide) .empty))
    have word : Token.Written 2 (['c'] ++ []) [⟨"c", 2, .bare⟩] :=
      .word (by decide) (List.forall_mem_singleton.mpr (by decide)) (by simp) (.finished 2)
    exact .quoted quotation (.blank (by decide) word)
  · rw [Cursor.ofText, tokens]
    rfl
  · have inside : ⟨"a", 1, .unclosed⟩ ∈ (Token.ofText "\"a\\\nb\" c").dropLast := by
      rw [tokens]
      exact List.mem_cons_self
    exact absurd (openAtEnd.closed_dropLast _ inside) (by decide)

end Menus
