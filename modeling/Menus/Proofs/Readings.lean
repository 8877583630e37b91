import Menus.Proofs.Fragments
import Menus.Proofs.Inlining
import Menus.Proofs.Mapping
import Menus.Proofs.Rereading

/-!
# Readings and what they record

A reading handles the statements of open files on a stack. What it comes to can be told without the
stack: it follows, one after another, the events of reading the files in place. So it meets each file
once, in the order in which the files are first met; its registry is what the blocks of menus give
when they are read into an empty registry in the order in which they are met; each inclusion that
fails is reported once and missed once; and all problems with each file are reported once, when its
end is reached.
-/

namespace Menus

namespace Reading

variable {system : FileSystem} {digest : ByteArray → String} {reading : Reading}
  {file : OpenFile} {outer : List OpenFile}

/-- Adds problems. -/
def report (reading : Reading) (problems : List Diagnostic) : Reading :=
  { reading with diagnostics := reading.diagnostics ++ problems }

/-- What an event adds to a reading. -/
def after (system : FileSystem) (digest : ByteArray → String) (reading : Reading) :
    Event → Reading
  | .enter place text => reading.meet digest place text
  | .menuset file tokens =>
    { reading with registry := (reading.registry.read { file, pending := tokens }).1 }
  | .failure path _ => { reading with missing := reading.missing ++ [path] }
  | .leave place text => reading.report (system.reported place text)

/-- What events add to a reading, one after another. -/
theorem foldl_after (events : List Event) (reading : Reading) :
    events.foldl (after system digest) reading =
      { registry := (Event.menusets events).foldl
          (fun registry block => (registry.read { file := block.1, pending := block.2 }).1)
          reading.registry
        diagnostics := reading.diagnostics ++
          (Event.left events).flatMap fun file => system.reported file.1 file.2
        sources := reading.sources ++
          (Event.entered events).map fun file => ⟨file.1, digest file.2.toUTF8⟩
        missing := reading.missing ++ (Event.failures events).map Prod.fst } := by
  induction events generalizing reading with
  | nil => simp [Event.menusets, Event.left, Event.entered, Event.failures]
  | cons event rest inductionHypothesis =>
    rw [List.foldl_cons, inductionHypothesis]
    cases event <;>
      simp [after, report, meet, Event.menusets, Event.left, Event.entered, Event.failures]

/-- The locations of the files met. -/
def locations (reading : Reading) : List Location := reading.sources.map Source.location

/-- Events meet the files that are entered. -/
theorem locations_foldl_after (events : List Event) (reading : Reading) :
    (events.foldl (after system digest) reading).locations =
      reading.locations ++ Event.places events := by
  simp [foldl_after, locations, Event.places]

/-- A file that is met joins those met before. -/
theorem locations_meet (reading : Reading) (place : Location) (text : String) :
    (reading.meet digest place text).locations = reading.locations ++ [place] := by
  simp [locations, meet]

/-- Behind a file that is met stand the files entered while it is read in place. -/
theorem locations_foldl_after_meet {met : List Location} (locations : reading.locations = met)
    (place : Location) (text : String) (inner : List Event) :
    (inner.foldl (after system digest) (reading.meet digest place text)).locations =
      met ++ place :: Event.places inner := by
  rw [locations_foldl_after, locations_meet, locations, List.append_assoc, List.singleton_append]

/-- A file was met before if its location is among those met. -/
theorem hasRead_iff (reading : Reading) (place : Location) :
    reading.hasRead place = true ↔ place ∈ reading.locations := by
  simp [hasRead, locations]

/-- Statements that include nothing are handled one after another. -/
theorem finish_plain {plain rest : List Statement}
    (all : ∀ statement ∈ plain, ∀ name line, statement ≠ .inclusion name line)
    (left : file.statements = plain ++ rest) :
    finish system digest reading (file :: outer) =
      finish system digest
        { reading with
          registry := reading.registry.contributeAll (Statement.contributions plain) }
        ({ file with
            statements := rest
            problems := file.problems ++ Statement.problems plain } :: outer) := by
  induction plain generalizing reading file with
  | nil =>
    obtain rfl : file.statements = rest := left
    simp [Statement.contributions, Statement.problems, Registry.contributeAll]
  | cons statement plain inductionHypothesis =>
    rw [List.forall_mem_cons] at all
    cases statement with
    | inclusion name line => exact absurd rfl (all.1 name line)
    | contribute contribution =>
      rw [finish_contribute left, inductionHypothesis all.2 rfl]
      rfl
    | problem problem =>
      rw [finish_problem left, inductionHypothesis all.2 rfl, OpenFile.report]
      simp only [List.append_assoc]
      rfl

/-- Handling the statements of a file and reaching its end comes to the events of reading its parts
in place, and reports the problems with it.

Proof: by induction on the inlining. A file that is met first stands on top of the one that includes
it until its own end is reached; what it has come to then is the event of leaving it. -/
theorem finish_inlines {met : List Location} {parts : List Part} {events : List Event}
    (inlines : system.Inlines met parts events) {pieces : List Piece} (outer : List OpenFile)
    (locations : reading.locations = met)
    (comes : pieces.map (system.part file.location) = parts)
    (left : file.statements = pieces.flatMap (Piece.statements (Location.path file.location))) :
    finish system digest reading (file :: outer) =
      finish system digest
        ((events.foldl (after system digest) reading).report
          (file.problems ++ parts.flatMap Part.problems)) outer := by
  induction inlines generalizing reading file pieces outer with
  | done met =>
    obtain rfl := List.map_eq_nil_iff.mp comes
    rw [finish_end left]
    simp [report]
  | @menuset met path tokens rest events _ inductionHypothesis =>
    obtain ⟨piece, later, rfl, isPart, rfl⟩ := List.map_eq_cons_iff.mp comes
    obtain ⟨rfl, rfl⟩ := FileSystem.part_eq_menuset isPart
    have plain := Passage.plain_readMenuset (Location.path file.location) tokens
    refine (finish_plain (fun statement member => (plain statement member).ne_inclusion)
      (left.trans List.flatMap_cons)).trans ?_
    -- The side conditions wait for the goal, which knows what the first piece has left behind.
    refine (inductionHypothesis outer (by exact locations) (by rfl) (by rfl)).trans ?_
    simp only [List.append_assoc]
    rfl
  | @aside met problems rest events _ inductionHypothesis =>
    obtain ⟨piece, later, rfl, isPart, rfl⟩ := List.map_eq_cons_iff.mp comes
    rcases FileSystem.part_eq_aside isPart with ⟨tokens, rfl⟩ | ⟨problem, rfl⟩
    · obtain ⟨nothing, plain⟩ := Passage.plain_skipToolbarset (Location.path file.location) tokens
      cases isPart
      refine (finish_plain (fun statement member => (plain statement member).ne_inclusion)
        (left.trans List.flatMap_cons)).trans ?_
      rw [nothing]
      refine (inductionHypothesis outer (by exact locations) (by rfl) (by rfl)).trans ?_
      simp only [List.append_assoc]
      rfl
    · cases isPart
      refine (finish_problem (left.trans List.flatMap_cons)).trans ?_
      refine (inductionHypothesis outer (by exact locations) (by rfl) (by rfl)).trans ?_
      simp only [OpenFile.report, List.append_assoc]
      rfl
  | @failure met path problem rest events _ inductionHypothesis =>
    obtain ⟨piece, later, rfl, isPart, rfl⟩ := List.map_eq_cons_iff.mp comes
    obtain ⟨name, line, cause, rfl, rfl, lost, rfl⟩ := FileSystem.part_eq_failure isPart
    rw [finish_inclusion (left.trans List.flatMap_cons), file.inclusionPath_here, lost]
    refine (inductionHypothesis outer (by exact locations) (by rfl) (by rfl)).trans ?_
    simp only [OpenFile.report, List.append_assoc]
    rfl
  | @first met place text rest inner events fresh _ _ within behind =>
    obtain ⟨piece, later, rfl, isPart, rfl⟩ := List.map_eq_cons_iff.mp comes
    obtain ⟨name, line, rfl, found⟩ := FileSystem.part_eq_file isPart
    have unmet : ¬reading.hasRead place := by rwa [hasRead_iff, locations]
    have entered : (reading.meet digest place text).locations = met ++ [place] := by
      rw [locations_meet, locations]
    have gone : (inner.foldl (after system digest) (reading.meet digest place text)).locations = _ :=
      locations_foldl_after_meet locations place text inner
    rw [finish_inclusion (left.trans List.flatMap_cons), file.inclusionPath_here, found]
    simp only [if_neg unmet]
    -- First the file that is met, down to its end, then what is left of the one that includes it.
    refine (within _ entered rfl (Statement.readFile_eq _ _)).trans ?_
    refine (behind outer (by exact gone) (by rfl) (by rfl)).trans ?_
    simp only [List.cons_append, List.foldl_cons, List.foldl_append]
    rfl
  | @again met place text rest events known _ inductionHypothesis =>
    obtain ⟨piece, later, rfl, isPart, rfl⟩ := List.map_eq_cons_iff.mp comes
    obtain ⟨name, line, rfl, found⟩ := FileSystem.part_eq_file isPart
    have metBefore : reading.hasRead place := by rwa [hasRead_iff, locations]
    rw [finish_inclusion (left.trans List.flatMap_cons), file.inclusionPath_here, found]
    simp only [if_pos metBefore]
    exact inductionHypothesis outer (by exact locations) (by rfl) (by rfl)

end Reading

namespace FileSystem

variable {system : FileSystem} {digest : ByteArray → String}

/-- The file at a location, as a part. There is none where no text is. -/
def fileAt? (system : FileSystem) (place : Location) : Option Part :=
  match system.textAt place with
  | .ok text => some (.file place text)
  | .error _ => none

/-- The file at a location is the text there. -/
theorem fileAt?_eq_some_iff {place : Location} {part : Part} :
    system.fileAt? place = some part ↔
      ∃ text, system.textAt place = .ok text ∧ part = .file place text := by
  rw [fileAt?]
  split <;> rename_i said <;> simp [said, eq_comm]

/-- The files at locations stand there. -/
theorem stand_of_fileAt? {roots : List Location} {parts : List Part}
    (files : roots.mapM system.fileAt? = some parts) : system.Stand parts := by
  intro place text member
  obtain ⟨root, _, isFile⟩ := exists_of_mem_mapM files member
  obtain ⟨said, stands, same⟩ := fileAt?_eq_some_iff.mp isFile
  cases same
  exact mem_locations_of_textAt stands

end FileSystem

namespace Reading

variable {system : FileSystem} {digest : ByteArray → String} {reading final : Reading}
  {roots : List Location}

/-- Files that were read one after another are texts. -/
theorem exists_files_of_foldlM
    (read : roots.foldlM (readRoot system digest) reading = .ok final) :
    ∃ parts, roots.mapM system.fileAt? = some parts := by
  rw [← Option.isSome_iff_exists, isSome_mapM_iff]
  induction roots generalizing reading with
  | nil => exact fun _ member => absurd member List.not_mem_nil
  | cons root roots inductionHypothesis =>
    obtain ⟨next, first, others⟩ := foldlM_readRoot_cons read
    obtain ⟨text, stands, _⟩ := readRoot_eq_ok first
    refine List.forall_mem_cons.mpr ⟨?_, inductionHypothesis others⟩
    exact Option.isSome_of_eq_some (FileSystem.fileAt?_eq_some_iff.mpr ⟨text, stands, rfl⟩)

/-- Reading files one after another comes to the events of reading them in place.

Proof: by induction on the inlining. Behind each file the stack is empty. -/
theorem foldlM_inlines {met : List Location} {parts : List Part} {events : List Event}
    (inlines : system.Inlines met parts events) (locations : reading.locations = met)
    (files : List.Forall₂ (fun root part => system.fileAt? root = some part) roots parts) :
    roots.foldlM (readRoot system digest) reading =
      .ok (events.foldl (after system digest) reading) := by
  induction inlines generalizing reading roots with
  | done =>
    cases files
    rfl
  | menuset | aside | failure =>
    cases files with | cons isFile _
    obtain ⟨_, _, same⟩ := FileSystem.fileAt?_eq_some_iff.mp isFile
    cases same
  | @first met place text rest inner events fresh inside _ _ behind =>
    cases files with | cons isFile others
    obtain ⟨_, stands, same⟩ := FileSystem.fileAt?_eq_some_iff.mp isFile
    cases same
    have unmet : ¬reading.hasRead place := by rwa [hasRead_iff, locations]
    have entered : (reading.meet digest place text).locations = met ++ [place] := by
      rw [locations_meet, locations]
    have gone : (inner.foldl (after system digest) (reading.meet digest place text)).locations = _ :=
      locations_foldl_after_meet locations place text inner
    rw [List.foldlM_cons, readRoot, stands]
    simp only [if_neg unmet]
    rw [finish_inlines inside [] entered rfl (Statement.readFile_eq _ _), finish]
    refine (behind (by exact gone) others).trans ?_
    simp only [List.cons_append, List.foldl_cons, List.foldl_append]
    rfl
  | @again met place text rest events known _ inductionHypothesis =>
    cases files with | cons isFile others
    obtain ⟨_, stands, same⟩ := FileSystem.fileAt?_eq_some_iff.mp isFile
    cases same
    have metBefore : reading.hasRead place := by rwa [hasRead_iff, locations]
    rw [List.foldlM_cons, readRoot, stands]
    simp only [if_pos metBefore]
    exact inductionHypothesis locations others

end Reading

/-- What is loaded is what the events of reading files in place come to. -/
structure Loaded.Records (loaded : Loaded) (system : FileSystem) (digest : ByteArray → String)
    (events : List Event) : Prop where
  /-- The files are those entered, in this order. -/
  sources : loaded.sources =
    (Event.entered events).map fun file => ⟨file.1, digest file.2.toUTF8⟩
  /-- No file is there twice. -/
  once : (loaded.sources.map Source.location).Nodup
  /-- The blocks of menus are read into an empty registry, one after another. -/
  registry : loaded.registry = (Event.menusets events).foldl
    (fun registry block => (registry.read { file := block.1, pending := block.2 }).1) {}
  /-- For each failure the path is missing. -/
  missing : loaded.missing = (Event.failures events).map Prod.fst
  /-- For each failure one problem is about an inclusion, and no other problem is. -/
  failed : (loaded.diagnostics.filter Diagnostic.isInclusion).Perm
    ((Event.failures events).map Prod.snd)
  /-- All problems with a file are found when it is left. -/
  diagnostics : loaded.diagnostics =
    (Event.left events).flatMap fun file => system.reported file.1 file.2
  /-- Each file that is entered is left once. -/
  left : (Event.left events).Perm (Event.entered events)

/-- The files to be read for the definitions at a path, with their texts: the one at their root, or the
fragments of a directory, which has to have some. -/
structure FileSystem.Readable (system : FileSystem) (path : String) (root : Location)
    (parts : List Part) : Prop where
  found : system.definitions path = .ok root
  nonempty : system.isDirectoryAt root → system.fragments root ≠ []
  files : (system.rootsAt root).mapM system.fileAt? = some parts

section Reading

variable {system : FileSystem} {digest : ByteArray → String} {path : String} {root : Location}
  {parts : List Part} {events : List Event} {loaded : Loaded}

/-- Definitions are read from their root. -/
theorem FileSystem.read_eq_ok_iff :
    system.read digest path = .ok loaded ↔
      ∃ root, system.definitions path = .ok root ∧ system.readAt digest root = .ok loaded := by
  cases found : system.definitions path with
  | error problem => simp [FileSystem.read, found, bind, Except.bind]
  | ok root => simp [FileSystem.read, found, bind, Except.bind]

/-- Readable definitions are loaded, and what is loaded is what reading their files in place comes
to. -/
theorem FileSystem.Readable.read (readable : system.Readable path root parts)
    (inlines : system.Inlines [] parts events) (digest : ByteArray → String) :
    system.read digest path = .ok
      ((events.foldl (Reading.after system digest) {}).toLoaded (system.fragments root)) := by
  refine read_eq_ok_iff.mpr ⟨root, readable.found, ?_⟩
  refine readAt_eq_ok_iff.mpr ⟨readable.nonempty, _, ?_, rfl⟩
  exact Reading.foldlM_inlines inlines rfl (forall₂_of_mapM readable.files)

/-- Definitions that are loaded are readable. -/
theorem FileSystem.exists_readable (read : system.read digest path = .ok loaded) :
    ∃ root parts, system.Readable path root parts := by
  obtain ⟨root, found, loads⟩ := read_eq_ok_iff.mp read
  obtain ⟨nonempty, reading, all, _⟩ := readAt_eq_ok_iff.mp loads
  obtain ⟨parts, files⟩ := Reading.exists_files_of_foldlM all
  exact ⟨root, parts, found, nonempty, files⟩

/-- What reading files in place comes to records its events. -/
theorem Reading.records_toLoaded {roots fragments : List Location}
    (files : roots.mapM system.fileAt? = some parts) (inlines : system.Inlines [] parts events) :
    ((events.foldl (after system digest) {}).toLoaded fragments).Records system digest events := by
  have onlyFiles : ∀ part ∈ parts, part.Sound ∧ part.problems = [] := by
    intro part member
    obtain ⟨place, _, isFile⟩ := exists_of_mem_mapM files member
    obtain ⟨text, _, rfl⟩ := FileSystem.fileAt?_eq_some_iff.mp isFile
    exact ⟨trivial, rfl⟩
  have failed := inlines.failures_perm fun part member => (onlyFiles part member).1
  rw [List.flatMap_eq_nil_iff.mpr fun part member => (onlyFiles part member).2,
    List.append_nil] at failed
  have once : (((Event.entered events).map fun file =>
      (⟨file.1, digest file.2.toUTF8⟩ : Source)).map Source.location).Nodup := by
    rw [List.map_map]
    exact inlines.nodup .nil
  rw [foldl_after]
  exact
    { sources := rfl
      once
      registry := rfl
      missing := rfl
      failed
      diagnostics := rfl
      left := inlines.left_perm }

end Reading

/-- Definitions are loaded if and only if they are readable, whatever their files include, and then
their files are read in place: the one at their root, or the fragments of a directory in the order of
their paths. There is exactly one way to do so, and what is loaded records it.

Proof: reading in place comes to an end in one way, and the reading comes to the same events. -/
theorem loaded_records_reading_in_place (system : FileSystem) (digest : ByteArray → String)
    (path : String) :
    ((∃ loaded, system.read digest path = .ok loaded) ↔
        ∃ root parts, system.Readable path root parts) ∧
      ∀ loaded, system.read digest path = .ok loaded →
        ∃ root parts events,
          system.Readable path root parts ∧
          loaded.fragments = system.fragments root ∧
          loaded.fragments.Pairwise (· ≤ ·) ∧
          (∀ other, system.Inlines [] parts other ↔ other = events) ∧
          loaded.Records system digest events := by
  have inlined {root : Location} {parts : List Part} (readable : system.Readable path root parts) :
      ∃ events, system.Inlines [] parts events :=
    FileSystem.exists_inlines (FileSystem.stand_of_fileAt? readable.files) []
  constructor
  · constructor
    · rintro ⟨loaded, read⟩
      exact FileSystem.exists_readable read
    · rintro ⟨root, parts, readable⟩
      obtain ⟨events, inlines⟩ := inlined readable
      exact ⟨_, readable.read inlines digest⟩
  · intro loaded read
    obtain ⟨root, parts, readable⟩ := FileSystem.exists_readable read
    obtain ⟨events, inlines⟩ := inlined readable
    obtain rfl := Except.ok.inj ((readable.read inlines digest).symm.trans read)
    refine ⟨root, parts, events, readable, rfl, system.pairwise_fragments root, ?_,
      Reading.records_toLoaded readable.files inlines⟩
    intro other
    constructor
    · exact inlines.unique
    · rintro rfl
      exact inlines

/-- Two definitions that include each other. The first includes the second twice, itself, and one that
is missing. -/
def circle : FileSystem where
  top :=
    [("m.ui", .file "include a include gone include m include a".toUTF8),
      ("a.ui", .file "include m menuset menubar separator end end".toUTF8)]

section Circle

/-- The tokens of the second definition. -/
def circleTokens : List Token :=
  [⟨"include", 1, .bare⟩, ⟨"m", 1, .bare⟩, ⟨"menuset", 1, .bare⟩, ⟨"menubar", 1, .bare⟩,
    ⟨"separator", 1, .bare⟩, ⟨"end", 1, .bare⟩, ⟨"end", 1, .bare⟩]

theorem locatedText_circle_first : circle.locatedText (Location.path ["m.ui"]) =
    .ok (["m.ui"], "include a include gone include m include a") :=
  FileSystem.locatedText_path (by decide) (by decide) rfl

theorem locatedText_circle_second : circle.locatedText (Location.path ["a.ui"]) =
    .ok (["a.ui"], "include m menuset menubar separator end end") :=
  FileSystem.locatedText_path (by decide) (by decide) rfl

theorem locatedText_circle_missing : circle.locatedText (Location.path ["gone.ui"]) =
    .error .notFound :=
  FileSystem.locatedText_path_of_missing (by decide) (by decide) rfl

/-- The parts and the problems of the first definition. -/
theorem parts_circle_first :
    circle.parts ["m.ui"] "include a include gone include m include a" =
        [.file ["a.ui"] "include m menuset menubar separator end end",
          .failure (Location.path ["gone.ui"])
            (.inclusionFailed (Location.path ["m.ui"]) 1 "gone" AccessError.notFound.message),
          .file ["m.ui"] "include a include gone include m include a",
          .file ["a.ui"] "include m menuset menubar separator end end"] ∧
      circle.reported ["m.ui"] "include a include gone include m include a" =
        [.inclusionFailed (Location.path ["m.ui"]) 1 "gone" AccessError.notFound.message] := by
  have tokens : Token.ofText "include a include gone include m include a" =
      [⟨"include", 1, .bare⟩, ⟨"a", 1, .bare⟩, ⟨"include", 1, .bare⟩, ⟨"gone", 1, .bare⟩,
        ⟨"include", 1, .bare⟩, ⟨"m", 1, .bare⟩, ⟨"include", 1, .bare⟩, ⟨"a", 1, .bare⟩] := by
    decide +kernel
  have pieces : Piece.ofTokens (Location.path ["m.ui"])
      (Token.ofText "include a include gone include m include a") =
        [.inclusion "a" 1, .inclusion "gone" 1, .inclusion "m" 1, .inclusion "a" 1] := by
    rw [tokens]
    with_unfolding_all rfl
  have toSecond : OpenFile.inclusionPath ⟨["m.ui"], [], []⟩ "a" = Location.path ["a.ui"] := by
    decide +kernel
  have toMissing : OpenFile.inclusionPath ⟨["m.ui"], [], []⟩ "gone" =
      Location.path ["gone.ui"] := by
    decide +kernel
  have toFirst : OpenFile.inclusionPath ⟨["m.ui"], [], []⟩ "m" = Location.path ["m.ui"] := by
    decide +kernel
  have parts := congrArg (List.map (circle.part ["m.ui"])) pieces
  simp only [List.map_cons, List.map_nil, FileSystem.part, FileSystem.included, toSecond, toMissing,
    toFirst, locatedText_circle_first, locatedText_circle_second, locatedText_circle_missing]
    at parts
  refine ⟨parts, ?_⟩
  rw [FileSystem.reported, FileSystem.parts, parts, tokens]
  rfl

/-- The parts and the problems of the second definition. -/
theorem parts_circle_second :
    circle.parts ["a.ui"] "include m menuset menubar separator end end" =
        [.file ["m.ui"] "include a include gone include m include a",
          .menuset (Location.path ["a.ui"]) (circleTokens.drop 3)] ∧
      circle.reported ["a.ui"] "include m menuset menubar separator end end" = [] := by
  have tokens : Token.ofText "include m menuset menubar separator end end" = circleTokens := by
    decide +kernel
  have pieces : Piece.ofTokens (Location.path ["a.ui"])
      (Token.ofText "include m menuset menubar separator end end") =
        [.inclusion "m" 1, .menuset (circleTokens.drop 3)] := by
    rw [tokens]
    with_unfolding_all rfl
  have toFirst : OpenFile.inclusionPath ⟨["a.ui"], [], []⟩ "m" = Location.path ["m.ui"] := by
    decide +kernel
  have parts := congrArg (List.map (circle.part ["a.ui"])) pieces
  simp only [List.map_cons, List.map_nil, FileSystem.part, FileSystem.included, toFirst,
    locatedText_circle_first] at parts
  refine ⟨parts, ?_⟩
  rw [FileSystem.reported, FileSystem.parts, parts, tokens]
  with_unfolding_all rfl

/-- What happens when the first definition is read in place. -/
theorem inlines_circle :
    circle.Inlines [] [.file ["m.ui"] "include a include gone include m include a"]
      [.enter ["m.ui"] "include a include gone include m include a",
        .enter ["a.ui"] "include m menuset menubar separator end end",
        .menuset (Location.path ["a.ui"]) (circleTokens.drop 3),
        .leave ["a.ui"] "include m menuset menubar separator end end",
        .failure (Location.path ["gone.ui"])
          (.inclusionFailed (Location.path ["m.ui"]) 1 "gone" AccessError.notFound.message),
        .leave ["m.ui"] "include a include gone include m include a"] := by
  have second : circle.Inlines [["m.ui"], ["a.ui"]]
      (circle.parts ["a.ui"] "include m menuset menubar separator end end")
      [.menuset (Location.path ["a.ui"]) (circleTokens.drop 3)] := by
    rw [parts_circle_second.1]
    exact .again (by decide) (.menuset (.done _))
  have first : circle.Inlines [["m.ui"]]
      (circle.parts ["m.ui"] "include a include gone include m include a")
      [.enter ["a.ui"] "include m menuset menubar separator end end",
        .menuset (Location.path ["a.ui"]) (circleTokens.drop 3),
        .leave ["a.ui"] "include m menuset menubar separator end end",
        .failure (Location.path ["gone.ui"])
          (.inclusionFailed (Location.path ["m.ui"]) 1 "gone" AccessError.notFound.message)] := by
    have behind : circle.Inlines [["m.ui"], ["a.ui"]]
        [.failure (Location.path ["gone.ui"])
            (.inclusionFailed (Location.path ["m.ui"]) 1 "gone" AccessError.notFound.message),
          .file ["m.ui"] "include a include gone include m include a",
          .file ["a.ui"] "include m menuset menubar separator end end"]
        [.failure (Location.path ["gone.ui"])
          (.inclusionFailed (Location.path ["m.ui"]) 1 "gone" AccessError.notFound.message)] :=
      .failure (.again (by decide) (.again (by decide) (.done _)))
    have fresh : ["a.ui"] ∉ [["m.ui"]] := by decide
    rw [parts_circle_first.1]
    exact .first fresh second behind
  exact .first List.not_mem_nil first (.done _)

/-- The first definition is readable. -/
theorem readable_circle : circle.Readable "/m.ui" ["m.ui"]
    [.file ["m.ui"] "include a include gone include m include a"] := by
  have stands : circle.textAt ["m.ui"] = .ok "include a include gone include m include a" :=
    FileSystem.textAt_of_file (by decide) rfl
  have single : circle.rootsAt ["m.ui"] = [["m.ui"]] := rfl
  constructor
  · have isPath : Location.path ["m.ui"] = "/m.ui" := by decide
    have resolved : circle.resolve .use (Location.path ["m.ui"]) = .ok ["m.ui"] :=
      (FileSystem.resolve_eq_locate (by decide)).trans
        (FileSystem.locatedText_eq_ok_iff.mp locatedText_circle_first).1
    rw [isPath] at resolved
    rw [FileSystem.definitions, resolved]
  · rw [FileSystem.isDirectoryAt_of_textAt stands]
    exact fun isDirectory => absurd isDirectory Bool.false_ne_true
  · rw [single, List.mapM_cons, FileSystem.fileAt?_eq_some_iff.mpr ⟨_, stands, rfl⟩]
    rfl

end Circle

/-- Reading the first definition meets each of the two once and the block of the second once, misses
what is missing once, and reports that. -/
theorem circle_is_read_in_place :
    ∃ loaded, circle.read (fun _ => "") "/m.ui" = .ok loaded ∧
      loaded.sources = [⟨["m.ui"], ""⟩, ⟨["a.ui"], ""⟩] ∧
      loaded.registry = { menubar := ⟨"", [.separator]⟩ } ∧
      loaded.missing = ["/gone.ui"] ∧
      loaded.diagnostics =
        [.inclusionFailed "/m.ui" 1 "gone" "No such file or directory (os error 2)"] := by
  obtain ⟨loads, recorded⟩ := loaded_records_reading_in_place circle (fun _ => "") "/m.ui"
  obtain ⟨loaded, read⟩ := loads.mpr ⟨_, _, readable_circle⟩
  obtain ⟨root, parts, events, readable, _, _, only, records⟩ := recorded loaded read
  obtain rfl := Except.ok.inj (readable_circle.found.symm.trans readable.found)
  obtain rfl := Option.some.inj (readable_circle.files.symm.trans readable.files)
  obtain rfl := (only _).mp inlines_circle
  have isPath : Location.path ["m.ui"] = "/m.ui" := by decide
  have isMissing : Location.path ["gone.ui"] = "/gone.ui" := by decide
  refine ⟨loaded, read, records.sources, ?_, ?_, ?_⟩
  · rw [records.registry]
    with_unfolding_all rfl
  · rw [records.missing, ← isMissing]
    rfl
  · rw [records.diagnostics, ← isPath]
    change circle.reported ["a.ui"] _ ++ (circle.reported ["m.ui"] _ ++ []) = _
    rw [parts_circle_second.2, parts_circle_first.2]
    rfl

end Menus
