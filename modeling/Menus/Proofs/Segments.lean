import Menus.Proofs.Keywords
import Menus.Proofs.Turns

/-!
# What reading a body makes of any tokens

A body ends at the first word `end`, or with the tokens. What stands in front of its end is cut at the
keywords: tokens that no keyword precedes, and then segments, each a keyword with the plain tokens
behind it. Reading a body looks at each segment on its own. A segment gives one entry when its keyword
takes no arguments or finds both of them, and otherwise one diagnostic for the missing argument; a
plain token that nothing takes gives a diagnostic of its own.

So reading is back in step at the next keyword whatever garbage stood in front of it, and takes
neither an `end` nor the start of another line for an argument.
-/

namespace Menus

/-- The description of the second argument, for a keyword that takes two. -/
def Keyword.second? : Keyword → Option String
  | .item _ => some "command"
  | .submenu _ => some "menu name"
  | _ => none

/-- Only the keyword `close` ends a body. -/
theorem Keyword.eq_close_of_line {keyword : Keyword} (finishes : keyword.line = .finish) :
    keyword = .close := by
  cases keyword <;> first | rfl | cases finishes

/-- A keyword of a body, and the plain tokens up to the next one. -/
structure Segment where
  keyword : Keyword
  head : Token
  further : List Token

namespace Segment

/-- The tokens of a segment. -/
def tokens (segment : Segment) : List Token :=
  segment.head :: segment.further

/-- The entry a segment adds. -/
def entry? (segment : Segment) : Option (Entry Menu) :=
  match segment.keyword, segment.further with
  | .separator, _ => some .separator
  | .generated generator, _ => some { kind := .generated generator }
  | .item optional, label :: command :: _ =>
    some { Entry.command label.text (.ofCommand command.text) with optional }
  | .submenu optional, label :: name :: _ =>
    some { Entry.submenu label.text name.text with optional }
  | _, _ => none

/-- The diagnostic for a plain token that nothing takes. -/
def surplus (file : String) (token : Token) : Diagnostic :=
  .unknownTag file token.line token.text Production.menuBody.name

/-- The diagnostics a segment adds. -/
def problems (file : String) (segment : Segment) : List Diagnostic :=
  match segment.keyword.second?, segment.further with
  | none, further => further.map (surplus file)
  | some _, [] => [.missingArgument file segment.head.line "label" segment.head.text]
  | some second, [label] => [.missingArgument file label.line second label.text]
  | some _, _ :: _ :: further => further.map (surplus file)

/-- The keyword takes the first plain tokens of its segment, whatever `others` are left over: it gives
the entry, if any, and makes the report. -/
structure Takes (file : String) (keyword : Keyword) (head : Token) (taken others : List Token)
    (entry : Option (Entry Menu)) (report : List Diagnostic) : Prop where
  gives : entry? ⟨keyword, head, taken ++ others⟩ = entry
  reports : problems file ⟨keyword, head, taken ++ others⟩ = report ++ others.map (surplus file)

section

variable {keyword : Keyword} (file : String) (head : Token)

/-- A keyword without arguments takes nothing and gives its entry. -/
theorem takes_of_plain {entry : Entry Menu} (line : keyword.line = .plain entry)
    (others : List Token) : Takes file keyword head [] others (some entry) [] := by
  constructor <;>
    cases keyword <;> simp_all [Keyword.line, entry?, problems, Keyword.second?]

/-- A keyword that announces no line takes nothing and gives nothing. -/
theorem takes_of_nothing (line : keyword.line = .nothing) (others : List Token) :
    Takes file keyword head [] others none [] := by
  constructor <;>
    cases keyword <;> simp_all [Keyword.line, entry?, problems, Keyword.second?]

variable {second : String} {build : String → String → Entry Menu}
  (line : keyword.line = .pair second build)

include line

/-- Where no label follows, that is reported. -/
theorem takes_without_label {others : List Token} (noneAhead : others = []) :
    Takes file keyword head [] others none
      [.missingArgument file head.line "label" head.text] := by
  subst noneAhead
  constructor <;>
    cases keyword <;> simp_all [Keyword.line, entry?, problems, Keyword.second?]

/-- Where only a label follows, the lack of the second argument is reported. -/
theorem takes_without_second (label : Token) {others : List Token} (noneAhead : others = []) :
    Takes file keyword head [label] others none
      [.missingArgument file label.line second label.text] := by
  subst noneAhead
  constructor <;>
    cases keyword <;> simp_all [Keyword.line, entry?, problems, Keyword.second?]

/-- Where both arguments follow, they make an entry. -/
theorem takes_both (label argument : Token) (others : List Token) :
    Takes file keyword head [label, argument] others (some (build label.text argument.text)) [] := by
  cases keyword with
  | item optional =>
    obtain ⟨rfl, rfl⟩ := Line.pair.inj line
    exact ⟨rfl, rfl⟩
  | submenu optional =>
    obtain ⟨rfl, rfl⟩ := Line.pair.inj line
    exact ⟨rfl, rfl⟩
  | _ => cases line

end

/-- The head of a segment spells the word of its keyword, and the other tokens are plain. -/
structure Proper (segment : Segment) : Prop where
  opens : ∃ word, (word, segment.keyword) ∈ Production.menuBody.keywords ∧
    segment.head.Spells word
  plain : ∀ token ∈ segment.further, Production.menuBody.Plain token

/-- Cuts tokens at the keywords: the tokens in front of the first one, and the segments. -/
def cut : List Token → List Token × List Segment
  | [] => ([], [])
  | token :: rest =>
    match Production.menuBody.keyword? token with
    | none => (token :: (cut rest).1, (cut rest).2)
    | some keyword => ([], ⟨keyword, token, (cut rest).1⟩ :: (cut rest).2)

end Segment

/-- Tokens cut at the keywords: plain ones in front, and proper segments. -/
structure CutInto (tokens leading : List Token) (segments : List Segment) : Prop where
  whole : leading ++ segments.flatMap Segment.tokens = tokens
  plain : ∀ token ∈ leading, Production.menuBody.Plain token
  proper : ∀ segment ∈ segments, segment.Proper

/-- Any tokens are cut at their keywords. -/
theorem Segment.cutInto_cut (tokens : List Token) : CutInto tokens (cut tokens).1 (cut tokens).2 := by
  induction tokens with
  | nil => exact ⟨rfl, by simp [cut], by simp [cut]⟩
  | cons token rest inductionHypothesis =>
    obtain ⟨whole, plain, proper⟩ := inductionHypothesis
    rw [cut]
    split
    · rename_i unknown
      have plainToken := (Production.keyword?_eq_none_iff Production.distinct_menuBody).mp unknown
      exact ⟨congrArg (token :: ·) whole, List.forall_mem_cons.mpr ⟨plainToken, plain⟩, proper⟩
    · rename_i keyword known
      have opens := (Production.keyword?_eq_some_iff Production.distinct_menuBody).mp known
      refine ⟨?_, by simp, List.forall_mem_cons.mpr ⟨⟨opens, plain⟩, proper⟩⟩
      rw [List.nil_append, List.flatMap_cons, Segment.tokens, List.cons_append, whole]

namespace Body

/-- The tokens in front of the first `end`. -/
def inside (tokens : List Token) : List Token :=
  tokens.takeWhile fun token => !decide (token.Spells "end")

/-- The tokens behind the first `end`; none where there is no `end`. -/
def behind (tokens : List Token) : List Token :=
  (tokens.dropWhile fun token => !decide (token.Spells "end")).tail

/-- The diagnostic for a body that no `end` closes. -/
def unclosed (file : String) (tokens : List Token) : List Diagnostic :=
  if ∃ token ∈ tokens, token.Spells "end" then []
  else [.unexpectedEnd file Production.menuBody.name]

/-- In a body, `end` is the keyword that closes it. -/
theorem keyword?_eq_close_iff {token : Token} :
    Production.menuBody.keyword? token = some .close ↔ token.Spells "end" := by
  rw [Production.keyword?_eq_some_iff Production.distinct_menuBody]
  simp [Production.menuBody]

/-- The plain tokens and the segments of a body. -/
def pieces (tokens : List Token) : List Token × List Segment :=
  Segment.cut (inside tokens)

/-- What the segments of a body give. -/
def ofSegments (file : String) (tokens : List Token) : Body where
  entries := (pieces tokens).2.filterMap Segment.entry?
  problems := (pieces tokens).1.map (Segment.surplus file) ++
    (pieces tokens).2.flatMap (Segment.problems file) ++ unclosed file tokens
  rest := behind tokens

variable {token : Token} {keyword : Keyword}

/-- A body that begins with its end holds nothing. -/
theorem pieces_of_end (ends : token.Spells "end") (rest : List Token) :
    pieces (token :: rest) = ([], []) := by
  simp [pieces, inside, ends, Segment.cut]

/-- Plain tokens stand in front of the plain tokens of the body. -/
theorem pieces_of_plain {taken : List Token}
    (plain : ∀ token ∈ taken, Production.menuBody.takesArgument token = true)
    (rest : List Token) : pieces (taken ++ rest) = (taken ++ (pieces rest).1, (pieces rest).2) := by
  induction taken with
  | nil => rfl
  | cons token others inductionHypothesis =>
    obtain ⟨tokenPlain, otherPlain⟩ := List.forall_mem_cons.mp plain
    have unknown := Option.isNone_iff_eq_none.mp tokenPlain
    have goesOn : ¬token.Spells "end" := by
      rw [← keyword?_eq_close_iff, unknown]
      nofun
    have later := inductionHypothesis otherPlain
    simp only [pieces, inside] at later
    simp [pieces, inside, goesOn, Segment.cut, unknown, later]

/-- A keyword that does not end the body begins a segment with the plain tokens behind it. -/
theorem pieces_of_keyword (known : Production.menuBody.keyword? token = some keyword)
    (goesOn : keyword ≠ .close) (rest : List Token) :
    pieces (token :: rest) = ([], ⟨keyword, token, (pieces rest).1⟩ :: (pieces rest).2) := by
  have notEnd : ¬token.Spells "end" := by
    rw [← keyword?_eq_close_iff, known]
    simpa using goesOn
  simp [pieces, inside, notEnd, Segment.cut, known]

/-- No plain token stands in front of a keyword, be it the end. -/
theorem leading_of_keyword (isKeyword : ¬Production.menuBody.takesArgument token = true)
    (rest : List Token) : (pieces (token :: rest)).1 = [] := by
  rw [Production.takesArgument, Option.isNone_iff_eq_none] at isKeyword
  obtain ⟨keyword, known⟩ := Option.ne_none_iff_exists'.mp isKeyword
  by_cases goesOn : keyword = .close
  · subst goesOn
    rw [pieces_of_end (keyword?_eq_close_iff.mp known)]
  · rw [pieces_of_keyword known goesOn]

/-- What stands in front of the end has no part in what stands behind it. -/
theorem behind_append {front : List Token}
    (goesOn : ∀ token ∈ front, Production.menuBody.keyword? token ≠ some .close)
    (rest : List Token) : behind (front ++ rest) = behind rest := by
  have skipped : ∀ token ∈ front, (!decide (token.Spells "end")) = true := by
    intro token member
    simpa [keyword?_eq_close_iff] using goesOn token member
  rw [behind, List.dropWhile_append_of_pos skipped, behind]

/-- What stands in front of the end does not close the body. -/
theorem unclosed_append {front : List Token}
    (goesOn : ∀ token ∈ front, Production.menuBody.keyword? token ≠ some .close)
    (file : String) (rest : List Token) : unclosed file (front ++ rest) = unclosed file rest := by
  have open_ : ∀ token ∈ front, ¬token.Spells "end" := by
    intro token member
    simpa [keyword?_eq_close_iff] using goesOn token member
  rw [unclosed, unclosed]
  congr 1
  simp only [List.mem_append, eq_iff_iff]
  constructor
  · rintro ⟨token, early | late, ends⟩
    · exact absurd ends (open_ token early)
    · exact ⟨token, late, ends⟩
  · rintro ⟨token, late, ends⟩
    exact ⟨token, .inr late, ends⟩

section

variable {file : String} {taken rest : List Token}

/-- A plain token that nothing takes is reported. -/
theorem ofSegments_of_plain (unknown : Production.menuBody.keyword? token = none) :
    ofSegments file (token :: rest) =
      (ofSegments file rest).withProblem (Segment.surplus file token) := by
  have plain : ∀ other ∈ [token], Production.menuBody.takesArgument other = true :=
    List.forall_mem_singleton.mpr (Option.isNone_iff_eq_none.mpr unknown)
  have goesOn : ∀ other ∈ [token], Production.menuBody.keyword? other ≠ some .close := by
    simp [unknown]
  rw [← List.singleton_append, ofSegments, pieces_of_plain plain, behind_append goesOn,
    unclosed_append goesOn]
  rfl

/-- Nothing of a body stands in front of its end. -/
theorem ofSegments_of_end (ends : token.Spells "end") :
    ofSegments file (token :: rest) = { rest } := by
  simp [ofSegments, pieces_of_end, behind, unclosed, ends]

/-- A keyword that takes some plain tokens gives the entry and the diagnostics of its segment, where
the other plain tokens of the segment are left over. -/
theorem ofSegments_of_keyword (known : Production.menuBody.keyword? token = some keyword)
    (goesOn : keyword.line ≠ .finish)
    (plain : ∀ other ∈ taken, Production.menuBody.takesArgument other = true)
    {entry : Option (Entry Menu)} {report : List Diagnostic}
    (takes : Segment.Takes file keyword token taken (pieces rest).1 entry report) :
    ofSegments file (token :: (taken ++ rest)) =
      { entries := entry.toList ++ (ofSegments file rest).entries
        problems := report ++ (ofSegments file rest).problems
        rest := (ofSegments file rest).rest } := by
  have notClose : keyword ≠ .close := by
    rintro rfl
    exact goesOn rfl
  have further : ∀ other ∈ token :: taken, Production.menuBody.keyword? other ≠ some .close := by
    intro other member
    rcases List.mem_cons.mp member with rfl | among
    · rw [known]
      simpa using notClose
    · rw [Option.isNone_iff_eq_none.mp (plain other among)]
      nofun
  have cutHere : pieces (token :: (taken ++ rest)) =
      ([], ⟨keyword, token, taken ++ (pieces rest).1⟩ :: (pieces rest).2) := by
    rw [pieces_of_keyword known notClose, pieces_of_plain plain]
  rw [ofSegments, cutHere, ← List.cons_append, behind_append further, unclosed_append further,
    List.flatMap_cons, takes.reports]
  cases entry <;> simp [ofSegments, takes.gives]

end

/-- Reading a body gives what its segments give.

Proof: by induction on the reading, one case for each of its steps. A step takes a plain token, the
end, or a keyword with as many plain tokens as it takes. The plain tokens it leaves over are those
the rest begins with, and there are none when it has met a keyword in the place of an argument. -/
theorem read_eq_ofSegments (file : String) (tokens : List Token) :
    read file tokens = ofSegments file tokens := by
  fun_induction read file tokens with
  | case1 => rfl
  | case2 token rest unknown inductionHypothesis =>
    rw [inductionHypothesis, ofSegments_of_plain unknown, Segment.surplus]
  | case3 token rest keyword known finishes =>
    rw [Keyword.eq_close_of_line finishes] at known
    rw [ofSegments_of_end (keyword?_eq_close_iff.mp known)]
  | case4 token rest keyword known entry line inductionHypothesis =>
    have takes := Segment.takes_of_plain file token line (pieces rest).1
    rw [inductionHypothesis]
    exact (ofSegments_of_keyword known (by simp [line]) (List.forall_mem_nil _) takes).symm
  | case5 token rest keyword known line inductionHypothesis =>
    have takes := Segment.takes_of_nothing file token line (pieces rest).1
    rw [inductionHypothesis]
    exact (ofSegments_of_keyword known (by simp [line]) (List.forall_mem_nil _) takes).symm
  | case6 token keyword known second build line inductionHypothesis =>
    have noneAhead : (pieces []).1 = [] := rfl
    have takes := Segment.takes_without_label file token line noneAhead
    rw [inductionHypothesis]
    exact (ofSegments_of_keyword known (by simp [line]) (List.forall_mem_nil _) takes).symm
  | case7 token keyword known second build line label plainLabel inductionHypothesis =>
    have noneAhead : (pieces []).1 = [] := rfl
    have takes := Segment.takes_without_second file token line label noneAhead
    rw [inductionHypothesis]
    exact (ofSegments_of_keyword known (by simp [line]) (by simpa using plainLabel) takes).symm
  | case8 token keyword known second build line label plainLabel argument rest plainArgument
      inductionHypothesis =>
    have takes := Segment.takes_both file token line label argument (pieces rest).1
    have plain : ∀ other ∈ [label, argument], Production.menuBody.takesArgument other = true := by
      simp [plainLabel, plainArgument]
    rw [inductionHypothesis]
    exact (ofSegments_of_keyword known (by simp [line]) plain takes).symm
  | case9 token keyword known second build line label plainLabel argument rest isKeyword
      inductionHypothesis =>
    have takes := Segment.takes_without_second file token line label
      (leading_of_keyword isKeyword rest)
    rw [inductionHypothesis]
    exact (ofSegments_of_keyword known (by simp [line]) (by simpa using plainLabel) takes).symm
  | case10 token keyword known second build line label rest isKeyword inductionHypothesis =>
    have takes := Segment.takes_without_label file token line (leading_of_keyword isKeyword rest)
    rw [inductionHypothesis]
    exact (ofSegments_of_keyword known (by simp [line]) (List.forall_mem_nil _) takes).symm

end Body

/-- Reading a body for a menu, turn by turn in its production and out of it again, is reading its
tokens. It ends behind the first `end`, or with the tokens where there is none, and leaves the
productions as they were. What stands in front is cut at the keywords. Each segment adds its entry, if
it has one. The diagnostics are, in the order of the tokens, one for each plain token in front, those of
the segments, and one for the missing `end`. -/
theorem bodies_are_read_by_segments (menu : Menu) (cursor : Cursor) :
    menu.readByTurns cursor = menu.read cursor ∧
      ∃ leading segments, CutInto (Body.inside cursor.pending) leading segments ∧
        (menu.read cursor).1 = menu.append (segments.filterMap Segment.entry?) ∧
        (menu.read cursor).2 =
          { cursor with
            pending := Body.behind cursor.pending
            diagnostics := cursor.diagnostics ++
              (leading.map (Segment.surplus cursor.file) ++
                segments.flatMap (Segment.problems cursor.file) ++
                Body.unclosed cursor.file cursor.pending) } := by
  refine ⟨menu.readByTurns_eq cursor, _, _, Segment.cutInto_cut (Body.inside cursor.pending), ?_, ?_⟩
  · rw [Menu.read, Body.read_eq_ofSegments]
    rfl
  · rw [Menu.read, Body.read_eq_ofSegments]
    rfl

end Menus
