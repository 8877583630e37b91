import Menus.Proofs.Pieces

/-!
# Files read in place of their names

What a definition file says once the files it includes are read in place. The path of an inclusion is
followed in the file system alone, whatever was read before, so it is known for each piece of a file
whether it stands for a text or fails. A file is read in place where it is met first; where it is
met again it gives nothing.

`FileSystem.Inlines` describes this depth first, by the parts that are left and the files met so
far, and records what happens on the way. There is exactly one such record for all parts that stand
in the file system. In it every file is entered at most once and left as often as it is entered, and
what is reported of inclusions is reported once for each of them that fails.
-/

namespace Menus

/-- A part of what a file says, with the path of its inclusion followed. -/
inductive Part where
  /-- A block of menus: the file it stands in and the tokens behind its keyword. -/
  | menuset (file : String) (tokens : List Token)
  /-- What gives no entries, with the problems found there. -/
  | aside (problems : List Diagnostic)
  /-- A file to be read in place, with its text. -/
  | file (place : Location) (text : String)
  /-- An inclusion whose path leads to no text. -/
  | failure (path : String) (problem : Diagnostic)

/-- The problems found with a part itself. -/
def Part.problems : Part → List Diagnostic
  | .menuset path tokens => Statement.problems (Passage.readMenuset path tokens).statements
  | .aside problems => problems
  | .file _ _ => []
  | .failure _ problem => [problem]

/-- Among problems with the part, exactly that of a failure is about an inclusion. -/
def Part.Sound : Part → Prop
  | .aside problems => ∀ problem ∈ problems, problem.isInclusion = false
  | .failure _ problem => problem.isInclusion = true
  | _ => True

/-- What happens while files are read in place. -/
inductive Event where
  /-- A file is met for the first time. -/
  | enter (place : Location) (text : String)
  /-- A block of menus is read. -/
  | menuset (file : String) (tokens : List Token)
  /-- An inclusion fails. -/
  | failure (path : String) (problem : Diagnostic)
  /-- The end of a file is reached. -/
  | leave (place : Location) (text : String)

namespace Event

/-- The files met, in this order. -/
def entered (events : List Event) : List (Location × String) :=
  events.filterMap fun
    | enter place text => some (place, text)
    | _ => none

/-- The blocks of menus, in the order in which they are read. -/
def menusets (events : List Event) : List (String × List Token) :=
  events.filterMap fun
    | menuset file tokens => some (file, tokens)
    | _ => none

/-- The inclusions that fail, in this order. -/
def failures (events : List Event) : List (String × Diagnostic) :=
  events.filterMap fun
    | failure path problem => some (path, problem)
    | _ => none

/-- The files whose end is reached, in this order. -/
def left (events : List Event) : List (Location × String) :=
  events.filterMap fun
    | leave place text => some (place, text)
    | _ => none

/-- The locations of the files met. -/
def places (events : List Event) : List Location := (entered events).map Prod.fst

end Event

namespace FileSystem

variable {system : FileSystem}

/-- The part that an inclusion comes to, with the problem to report if it fails. -/
def included (system : FileSystem) (path : String) (problem : AccessError → Diagnostic) : Part :=
  match system.locatedText path with
  | .ok (place, text) => .file place text
  | .error cause => .failure path (problem cause)

/-- The part that a piece of the file at a location comes to. -/
def part (system : FileSystem) (here : Location) : Piece → Part
  | .menuset tokens => .menuset (Location.path here) tokens
  | .toolbars tokens =>
    .aside (Statement.problems (Passage.skipToolbarset (Location.path here) tokens).statements)
  | .stray problem => .aside [problem]
  | .inclusion name line =>
    system.included (OpenFile.inclusionPath ⟨here, [], []⟩ name) fun cause =>
      .inclusionFailed (Location.path here) line name cause.message

/-- The parts of a text that stands at a location. -/
def parts (system : FileSystem) (here : Location) (text : String) : List Part :=
  (Piece.ofTokens (Location.path here) (Token.ofText text)).map (system.part here)

/-- All problems with a file: the quotes that nothing closes and the problems with its parts. -/
def reported (system : FileSystem) (here : Location) (text : String) : List Diagnostic :=
  Diagnostic.ofTokens (Location.path here) (Token.ofText text) ++
    (system.parts here text).flatMap Part.problems

/-- What happens while parts are handled one after another, behind the files already met. A file is
read in place where it is met first. -/
inductive Inlines (system : FileSystem) : List Location → List Part → List Event → Prop where
  | done (met : List Location) : Inlines system met [] []
  | menuset {met : List Location} {file : String} {tokens : List Token} {rest : List Part}
      {events : List Event} (further : Inlines system met rest events) :
      Inlines system met (.menuset file tokens :: rest) (.menuset file tokens :: events)
  | aside {met : List Location} {problems : List Diagnostic} {rest : List Part}
      {events : List Event} (further : Inlines system met rest events) :
      Inlines system met (.aside problems :: rest) events
  | failure {met : List Location} {path : String} {problem : Diagnostic} {rest : List Part}
      {events : List Event} (further : Inlines system met rest events) :
      Inlines system met (.failure path problem :: rest) (.failure path problem :: events)
  | first {met : List Location} {place : Location} {text : String} {rest : List Part}
      {inner events : List Event} (fresh : place ∉ met)
      (inside : Inlines system (met ++ [place]) (system.parts place text) inner)
      (further : Inlines system (met ++ place :: Event.places inner) rest events) :
      Inlines system met (.file place text :: rest)
        (.enter place text :: inner ++ .leave place text :: events)
  | again {met : List Location} {place : Location} {text : String} {rest : List Part}
      {events : List Event} (known : place ∈ met) (further : Inlines system met rest events) :
      Inlines system met (.file place text :: rest) events

section Pieces

variable {here : Location} {piece : Piece}

/-- A block of menus comes from one. -/
theorem part_eq_menuset {file : String} {tokens : List Token}
    (same : system.part here piece = .menuset file tokens) :
    piece = .menuset tokens ∧ file = Location.path here := by
  cases piece with
  | menuset => cases same; exact ⟨rfl, rfl⟩
  | toolbars | stray => cases same
  | inclusion =>
    rw [part, included] at same
    split at same <;> cases same

/-- What gives no entries comes from a block of toolbars or a stray token. -/
theorem part_eq_aside {problems : List Diagnostic}
    (same : system.part here piece = .aside problems) :
    (∃ tokens, piece = .toolbars tokens) ∨ ∃ problem, piece = .stray problem := by
  cases piece with
  | menuset => cases same
  | toolbars tokens => exact .inl ⟨tokens, rfl⟩
  | stray problem => exact .inr ⟨problem, rfl⟩
  | inclusion =>
    rw [part, included] at same
    split at same <;> cases same

/-- A file comes from an inclusion whose path leads to it. -/
theorem part_eq_file {place : Location} {text : String}
    (same : system.part here piece = .file place text) :
    ∃ name line, piece = .inclusion name line ∧
      system.locatedText (OpenFile.inclusionPath ⟨here, [], []⟩ name) = .ok (place, text) := by
  cases piece with
  | menuset | toolbars | stray => cases same
  | inclusion name line =>
    rw [part, included] at same
    split at same <;> cases same
    exact ⟨name, line, rfl, ‹_›⟩

/-- A failure comes from an inclusion whose path leads to no text. -/
theorem part_eq_failure {path : String} {problem : Diagnostic}
    (same : system.part here piece = .failure path problem) :
    ∃ name line cause, piece = .inclusion name line ∧
      path = OpenFile.inclusionPath ⟨here, [], []⟩ name ∧
      system.locatedText path = .error cause ∧
      problem = .inclusionFailed (Location.path here) line name cause.message := by
  cases piece with
  | menuset | toolbars | stray => cases same
  | inclusion name line =>
    rw [part, included] at same
    split at same <;> cases same
    exact ⟨name, line, _, rfl, rfl, ‹_›, rfl⟩

end Pieces

/-- The file of every part stands in the file system. -/
def Stand (system : FileSystem) (parts : List Part) : Prop :=
  ∀ place text, Part.file place text ∈ parts → place ∈ system.locations

/-- The files that a text includes stand in the file system. -/
theorem stand_parts (system : FileSystem) (here : Location) (said : String) :
    system.Stand (system.parts here said) := by
  intro place text member
  rw [parts, List.mem_map] at member
  obtain ⟨piece, _, same⟩ := member
  obtain ⟨name, line, _, found⟩ := part_eq_file same
  exact mem_locations_of_locatedText found

/-- No problem with the quotes of a file is about an inclusion. -/
theorem filter_reported (system : FileSystem) (here : Location) (text : String) :
    (system.reported here text).filter Diagnostic.isInclusion =
      ((system.parts here text).flatMap Part.problems).filter Diagnostic.isInclusion := by
  have quotes : (Diagnostic.ofTokens (Location.path here) (Token.ofText text)).filter
      Diagnostic.isInclusion = [] := by
    rw [Diagnostic.ofTokens, List.filter_eq_nil_iff]
    intro problem member
    obtain ⟨token, _, rfl⟩ := List.mem_map.mp member
    simp [Diagnostic.isInclusion]
  rw [reported, List.filter_append, quotes, List.nil_append]

/-- Only the failures among the parts of a file are problems about inclusions. -/
theorem sound_parts (system : FileSystem) (here : Location) (text : String) :
    ∀ part ∈ system.parts here text, part.Sound := by
  intro part member
  rw [parts, List.mem_map] at member
  obtain ⟨piece, among, rfl⟩ := member
  have plain := Piece.plain_of_not_inclusion _ _ piece among
  cases piece with
  | menuset => trivial
  | toolbars tokens =>
    have none := Statement.filter_problems_of_plain (plain fun _ _ => nofun)
    intro problem member
    simpa using List.filter_eq_nil_iff.mp none problem member
  | stray problem =>
    have reports : (Statement.problem problem).Plain :=
      plain (fun _ _ => nofun) _ List.mem_cons_self
    exact List.forall_mem_singleton.mpr reports
  | inclusion name line =>
    rw [FileSystem.part, included]
    split
    · trivial
    · rfl

/-- The locations of files that are not met yet. -/
def unmet (system : FileSystem) (met : List Location) : List Location :=
  system.locations.filter fun location => location ∉ met

/-- With another file met, fewer are left. -/
theorem unmet_length_lt {met : List Location} {place : Location}
    (stands : place ∈ system.locations) (fresh : place ∉ met) (more : List Location) :
    (system.unmet (met ++ place :: more)).length < (system.unmet met).length := by
  have narrower : system.unmet (met ++ place :: more) =
      (system.unmet met).filter fun location => location ∉ place :: more := by
    simp only [unmet, List.filter_filter, List.mem_append, not_or, Bool.decide_and, Bool.and_comm]
  rw [narrower, List.length_filter_lt_length_iff_exists]
  exact ⟨place, by simp [unmet, stands, fresh], by simp⟩

/-- Reading in place comes to an end.

Proof: by induction on the number of files not met, and for each number on the parts. A file that is
met first leaves fewer behind, for its own parts and for those behind it. -/
theorem exists_inlines {parts : List Part} (stand : system.Stand parts) (met : List Location) :
    ∃ events, system.Inlines met parts events := by
  induction count : (system.unmet met).length using Nat.strongRecOn generalizing met parts with
  | ind count fewer =>
    induction parts with
    | nil => exact ⟨[], .done met⟩
    | cons part rest inductionHypothesis =>
      have standRest : system.Stand rest := fun place text member =>
        stand place text (List.mem_cons_of_mem part member)
      obtain ⟨events, further⟩ := inductionHypothesis standRest
      cases part with
      | menuset file tokens => exact ⟨_, .menuset further⟩
      | aside problems => exact ⟨_, .aside further⟩
      | failure path problem => exact ⟨_, .failure further⟩
      | file place text =>
        by_cases known : place ∈ met
        · exact ⟨_, .again known further⟩
        · -- The parts behind are handled with more files met, so `further` is of no use here.
          have shorter := unmet_length_lt (stand place text List.mem_cons_self) known
          obtain ⟨inner, inside⟩ :=
            fewer _ (count ▸ shorter []) (stand_parts system place text) (met ++ [place]) rfl
          obtain ⟨after, behind⟩ := fewer _ (count ▸ shorter (Event.places inner)) standRest _ rfl
          exact ⟨_, .first known inside behind⟩

namespace Inlines

variable {met : List Location} {parts : List Part} {events : List Event}

/-- There is one way to read parts in place. -/
theorem unique (inlines : system.Inlines met parts events) {other : List Event}
    (otherwise : system.Inlines met parts other) : other = events := by
  induction inlines generalizing other with
  | done =>
    cases otherwise
    rfl
  | menuset _ inductionHypothesis | failure _ inductionHypothesis =>
    cases otherwise with | _ further
    rw [inductionHypothesis further]
  | aside _ inductionHypothesis =>
    cases otherwise with | _ further
    exact inductionHypothesis further
  | first fresh _ _ within behind =>
    cases otherwise with
    | first _ inside further =>
      obtain rfl := within inside
      rw [behind further]
    | again known => exact absurd known fresh
  | again known _ inductionHypothesis =>
    cases otherwise with
    | first fresh => exact absurd known fresh
    | again _ further => exact inductionHypothesis further

/-- No file is entered twice, and none that was met before. -/
theorem nodup (inlines : system.Inlines met parts events) (distinct : met.Nodup) :
    (met ++ Event.places events).Nodup := by
  induction inlines with
  | done => simpa [Event.places, Event.entered] using distinct
  | menuset _ inductionHypothesis | aside _ inductionHypothesis
  | failure _ inductionHypothesis | again _ _ inductionHypothesis =>
    exact inductionHypothesis distinct
  | @first met place text rest inner events fresh _ _ within behind =>
    have joined : met ++ Event.places (.enter place text :: inner ++ .leave place text :: events) =
        met ++ place :: Event.places inner ++ Event.places events := by
      simp [Event.places, Event.entered]
    have here : (met ++ [place]).Nodup :=
      List.perm_append_singleton place met |>.nodup_iff.mpr (List.nodup_cons.mpr ⟨fresh, distinct⟩)
    rw [joined]
    exact behind (by simpa using within here)

/-- Every file that is entered is left. -/
theorem left_perm (inlines : system.Inlines met parts events) :
    (Event.left events).Perm (Event.entered events) := by
  induction inlines with
  | done => exact .nil
  | menuset _ inductionHypothesis | aside _ inductionHypothesis
  | failure _ inductionHypothesis | again _ _ inductionHypothesis => exact inductionHypothesis
  | @first met place text rest inner events _ _ _ within behind =>
    have leaving : Event.left (.enter place text :: inner ++ .leave place text :: events) =
        Event.left inner ++ (place, text) :: Event.left events := by
      simp [Event.left]
    have entering : Event.entered (.enter place text :: inner ++ .leave place text :: events) =
        (place, text) :: (Event.entered inner ++ Event.entered events) := by
      simp [Event.entered]
    rw [leaving, entering]
    exact List.perm_middle.trans ((within.append behind).cons _)

/-- Of all problems with the files that are left and with the parts that are handled, those that are
about inclusions are the failures, one for each.

Proof: by induction on the inlining. The problems with a file are reported when it is left, and they
are those with its parts, besides quotes that nothing closes. -/
theorem failures_perm (inlines : system.Inlines met parts events)
    (sound : ∀ part ∈ parts, part.Sound) :
    (((Event.left events).flatMap fun file => system.reported file.1 file.2) ++
        parts.flatMap Part.problems).filter Diagnostic.isInclusion |>.Perm
      ((Event.failures events).map Prod.snd) := by
  induction inlines with
  | done => exact .nil
  | @menuset met file tokens rest events _ inductionHypothesis =>
    rw [List.forall_mem_cons] at sound
    have none := Statement.filter_problems_of_plain (Passage.plain_readMenuset file tokens)
    simpa [Event.left, Event.failures, Part.problems, none] using inductionHypothesis sound.2
  | @aside met problems rest events _ inductionHypothesis =>
    rw [List.forall_mem_cons] at sound
    have none : problems.filter Diagnostic.isInclusion = [] :=
      List.filter_eq_nil_iff.mpr fun problem member => by simp [sound.1 problem member]
    simpa [Part.problems, none] using inductionHypothesis sound.2
  | @failure met path problem rest events _ inductionHypothesis =>
    rw [List.forall_mem_cons] at sound
    have reports : problem.isInclusion = true := sound.1
    have perm := (inductionHypothesis sound.2).cons problem
    rw [List.filter_append] at perm
    simpa [Event.left, Event.failures, Part.problems, reports] using List.perm_middle.trans perm
  | @first met place text rest inner events _ _ _ within behind =>
    rw [List.forall_mem_cons] at sound
    have joined := (within (sound_parts system place text)).append (behind sound.2)
    simpa [Event.left, Event.failures, Part.problems, filter_reported] using joined
  | again _ _ inductionHypothesis =>
    rw [List.forall_mem_cons] at sound
    exact inductionHypothesis sound.2

end Inlines

end FileSystem

end Menus
