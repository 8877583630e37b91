import Menus.Proofs.Layouts

/-!
# Texts put together

A definition text can be put together from others, one behind the other with a line end between
them. If the first one closes all its quotes, the tokens of the whole are those of the first and then
those of the second, only that the second stands further down. How the first one ends does not matter:
a comment, a word and a closed quote all end at the line end at the latest. Nor does it matter what the
second one is, as nothing of the first one is still open when it begins.

The proof follows the scanner through the first text. Whatever it leaves unread has the line end and the
second text behind it, and once nothing is left it goes on as at the beginning of a text, apart from the
line. A quote that nothing closes is the one thing that would take the second text in.
-/

namespace Menus

/-- The token as it stands a number of lines further down. -/
def Token.movedDown (lines : Nat) (token : Token) : Token :=
  { token with line := token.line + lines }

/-- The diagnostic of a text that stands a number of lines further down. That a text ended too early is
said without a line. -/
def Diagnostic.movedDown (lines : Nat) : Diagnostic → Diagnostic
  | unknownTag file line token production => unknownTag file (line + lines) token production
  | missingArgument file line expected after => missingArgument file (line + lines) expected after
  | unexpectedEnd file production => unexpectedEnd file production
  | unclosedString file line => unclosedString file (line + lines)
  | inclusionFailed file line name reason => inclusionFailed file (line + lines) name reason

namespace Token

/-- A text that stands further down has the same tokens further down. -/
theorem scan_add (line lines : Nat) (text : List Char) :
    scan (line + lines) text = (scan line text).map (movedDown lines) := by
  fun_induction scan line text with
  | case1 line =>
    rw [scan]
    rfl
  | case2 line c rest separates inductionHypothesis =>
    rw [scan_blank _ separates, Nat.add_right_comm]
    by_cases ends : c = '\n'
    · simpa [ends] using inductionHypothesis
    · simpa [ends] using inductionHypothesis
  | case3 line rest noBlank inductionHypothesis =>
    rw [scan_comment, inductionHypothesis]
  | case4 line rest quoted noBlank noComment inductionHypothesis =>
    rw [scan_quote, List.map_cons, ← inductionHypothesis, Nat.add_right_comm]
    rfl
  | case5 line c rest noBlank noComment noQuote inductionHypothesis =>
    have begins : isWordChar c = true :=
      (isWordChar_iff c).mpr ⟨Bool.not_eq_true _ ▸ noBlank, noQuote, noComment⟩
    rw [scan_word _ begins, List.map_cons, ← inductionHypothesis]
    rfl

/-- What is taken up to a character that stops it does not depend on what stands behind that
character. -/
theorem takeWhile_stopped {p : Char → Bool} {stop : Char} (stops : p stop = false)
    (text behind : List Char) :
    (text ++ stop :: behind).takeWhile p = text.takeWhile p ∧
      (text ++ stop :: behind).dropWhile p = text.dropWhile p ++ stop :: behind := by
  induction text with
  | nil => simp [stops]
  | cons c rest inductionHypothesis =>
    obtain ⟨taken, left⟩ := inductionHypothesis
    cases holds : p c with
    | true => simp [holds, taken, left]
    | false => simp [holds]

/-- An ordinary character between quotes is taken as it is. -/
theorem readQuoted_cons {c : Char} (noQuote : c ≠ '"') (noBackslash : c ≠ '\\')
    (rest : List Char) : readQuoted (c :: rest) = (readQuoted rest).cons c := by
  rw [readQuoted]
  · exact noQuote
  · intro _ _ backslash
    exact absurd backslash noBackslash
  · intro backslash
    exact absurd backslash noBackslash

/-- A quote that is closed is read without looking at what stands behind it. -/
theorem readQuoted_append {text : List Char} (closed : (readQuoted text).closed = true)
    (behind : List Char) :
    readQuoted (text ++ behind) =
      { readQuoted text with rest := (readQuoted text).rest ++ behind } := by
  fun_induction readQuoted text with
  | case1 | case3 | case5 => cases closed
  | case2 rest => rfl
  | case4 c rest notLineEnd inductionHypothesis =>
    rw [List.cons_append, List.cons_append, readQuoted, if_neg notLineEnd, inductionHypothesis closed]
    rfl
  | case6 c rest noQuote noEscape noBackslash inductionHypothesis =>
    have ordinary : c ≠ '\\' := by
      intro backslash
      cases rest with
      | nil => exact noBackslash backslash rfl
      | cons d others => exact noEscape d others backslash rfl
    rw [List.cons_append, readQuoted_cons noQuote ordinary, inductionHypothesis closed]
    rfl

/-- The line ends behind an opening quote are those of the quoted text and those of what is left. -/
theorem count_readQuoted (text : List Char) :
    text.count '\n' =
      (readQuoted text).text.count '\n' + (readQuoted text).rest.count '\n' := by
  fun_induction readQuoted text with
  | case1 | case5 => rfl
  | case2 rest | case3 rest => simp
  | case4 c rest notLineEnd inductionHypothesis =>
    simp [Quoted.cons, notLineEnd, inductionHypothesis]
  | case6 c rest _ _ _ inductionHypothesis =>
    simp only [Quoted.cons, List.count_cons, inductionHypothesis]
    omega

/-- No line ends among characters that are all something else. -/
theorem count_dropWhile {p : Char → Bool} (stops : p '\n' = false) (text : List Char) :
    (text.dropWhile p).count '\n' = text.count '\n' := by
  have whole : text.takeWhile p ++ text.dropWhile p = text := List.takeWhile_append_dropWhile
  have none : (text.takeWhile p).count '\n' = 0 := by
    rw [List.count_eq_zero]
    intro member
    have holds := List.all_eq_true.mp List.all_takeWhile _ member
    rw [stops] at holds
    cases holds
  calc (text.dropWhile p).count '\n'
      = (text.takeWhile p).count '\n' + (text.dropWhile p).count '\n' := by omega
    _ = text.count '\n' := by rw [← List.count_append, whole]

/-- Behind a text that closes its quotes, and a line end, a second text is read as it is alone, from
the line on which it stands.

Proof: by induction along the scanner. A comment and a word stop at the line end if not before, and a
quote that is closed stops within the first text. -/
theorem scan_append (line : Nat) (first second : List Char)
    (closed : ∀ token ∈ scan line first, token.isUnclosed = false) :
    scan line (first ++ '\n' :: second) =
      scan line first ++ scan (line + (first.count '\n' + 1)) second := by
  fun_induction scan line first with
  | case1 line =>
    have separates : Text.isBlank '\n' = true := by decide
    rw [List.nil_append, scan_blank line separates]
    rfl
  | case2 line c rest separates inductionHypothesis =>
    have onward := inductionHypothesis closed
    rw [List.cons_append, scan_blank line separates]
    by_cases ends : c = '\n'
    · subst ends
      simpa [Nat.add_comm, Nat.add_left_comm] using onward
    · simpa [ends] using onward
  | case3 line rest noBlank inductionHypothesis =>
    have stops : decide ('\n' ≠ '\n') = false := by decide
    have onward := inductionHypothesis closed
    rw [count_dropWhile stops] at onward
    rw [List.cons_append, scan_comment, (takeWhile_stopped stops rest second).2, onward]
    simp
  | case4 line rest quoted noBlank noComment inductionHypothesis =>
    obtain ⟨isClosed, others⟩ := List.forall_mem_cons.mp closed
    have closes : (readQuoted rest).closed = true := by
      by_contra opens
      simp [Token.isUnclosed, quoted, opens] at isClosed
    have lines : ('"' :: rest).count '\n' = quoted.text.count '\n' + quoted.rest.count '\n' := by
      rw [List.count_cons_of_ne (by decide), count_readQuoted]
    rw [List.cons_append, scan_quote, readQuoted_append closes, inductionHypothesis others, lines,
      Nat.add_assoc, Nat.add_assoc]
    rfl
  | case5 line c rest noBlank noComment noQuote inductionHypothesis =>
    have begins : isWordChar c = true :=
      (isWordChar_iff c).mpr ⟨Bool.not_eq_true _ ▸ noBlank, noQuote, noComment⟩
    have stops : isWordChar '\n' = false := by decide
    obtain ⟨taken, left⟩ := takeWhile_stopped stops rest second
    have others := (List.forall_mem_cons.mp closed).2
    have lines : (c :: rest).count '\n' = (rest.dropWhile isWordChar).count '\n' := by
      have noLineEnd : c ≠ '\n' := by
        rintro rfl
        rw [stops] at begins
        cases begins
      rw [count_dropWhile stops, List.count_cons_of_ne noLineEnd]
    rw [List.cons_append, scan_word line begins, taken, left, inductionHypothesis others, lines]
    rfl

end Token

/-- If reading a text leaves nothing to report, no token of it is unclosed. -/
theorem Diagnostic.closed_of_silent {file : String} {tokens : List Token}
    (silent : ofTokens file tokens = []) : ∀ token ∈ tokens, token.isUnclosed = false := by
  have none := List.filter_eq_nil_iff.mp (List.map_eq_nil_iff.mp silent)
  intro token member
  exact Bool.eq_false_iff.mpr (none token member)

/-- The diagnostics of tokens that stand further down stand further down themselves. -/
theorem Diagnostic.ofTokens_movedDown (file : String) (lines : Nat) (tokens : List Token) :
    ofTokens file (tokens.map (Token.movedDown lines)) =
      (ofTokens file tokens).map (movedDown lines) := by
  have sameForm : Token.isUnclosed ∘ Token.movedDown lines = Token.isUnclosed := rfl
  rw [ofTokens, ofTokens, List.filter_map, sameForm, List.map_map, List.map_map]
  rfl

/-- If the first of two texts leaves nothing to report, reading it, a line end and the second text gives
the tokens of the first and then those of the second, and reports what the second leaves to report.
Tokens and diagnostics of the second text stand further down by the lines of the first. -/
theorem texts_are_read_one_behind_the_other (file first second : String)
    (silent : (Cursor.ofText file first).diagnostics = []) :
    Cursor.ofText file (first ++ "\n" ++ second) =
      { file
        pending := (Cursor.ofText file first).pending ++
          (Cursor.ofText file second).pending.map (Token.movedDown (1 + first.toList.count '\n'))
        diagnostics := (Cursor.ofText file second).diagnostics.map
          (Diagnostic.movedDown (1 + first.toList.count '\n')) } := by
  have closed := Diagnostic.closed_of_silent silent
  have read : Token.ofText (first ++ "\n" ++ second) = Token.ofText first ++
      (Token.ofText second).map (Token.movedDown (1 + first.toList.count '\n')) := by
    have written : (first ++ "\n" ++ second).toList = first.toList ++ '\n' :: second.toList := by
      simp
    rw [Token.ofText, written, Token.scan_append 1 _ _ closed, Token.scan_add, Nat.add_comm 1]
    rfl
  have reported : Diagnostic.ofTokens file (Token.ofText (first ++ "\n" ++ second)) =
      (Diagnostic.ofTokens file (Token.ofText second)).map
        (Diagnostic.movedDown (1 + first.toList.count '\n')) := by
    have nothing : Diagnostic.ofTokens file (Token.ofText first) = [] := silent
    rw [read, ← Diagnostic.ofTokens_movedDown, Diagnostic.ofTokens, List.filter_append, List.map_append,
      ← Diagnostic.ofTokens, nothing]
    rfl
  rw [Cursor.ofText, reported, read]
  rfl

/-- A quote in a comment at the end of one text does not reach the next one, which leaves a quote of its
own open. -/
theorem open_comment_ends_before_next_text :
    (Cursor.ofText "t.ui" "item \"a\nb\" # \"").diagnostics = [] ∧
      Cursor.ofText "t.ui" ("item \"a\nb\" # \"" ++ "\n" ++ "end \"c\nd") =
        { file := "t.ui"
          pending := [⟨"item", 1, .bare⟩, ⟨"a\nb", 1, .quoted⟩, ⟨"end", 3, .bare⟩,
            ⟨"c\nd", 3, .unclosed⟩]
          diagnostics := [.unclosedString "t.ui" 3] } := by
  have first : Token.ofText "item \"a\nb\" # \"" =
      [⟨"item", 1, .bare⟩, ⟨"a\nb", 1, .quoted⟩] := by decide +kernel
  have second : Token.ofText "end \"c\nd" = [⟨"end", 1, .bare⟩, ⟨"c\nd", 1, .unclosed⟩] := by
    decide +kernel
  have silent : (Cursor.ofText "t.ui" "item \"a\nb\" # \"").diagnostics = [] := by
    rw [Cursor.ofText, first]
    rfl
  refine ⟨silent, ?_⟩
  rw [texts_are_read_one_behind_the_other _ _ _ silent, Cursor.ofText, Cursor.ofText, first, second]
  rfl

end Menus
