import Mathlib.Data.List.Forall2
import Menus.Cache
import Menus.Proofs.Resolution
import Menus.Proofs.Templates

/-!
# Reading again after changes

A reading looks at a file system in few ways: it asks for the fragments of a directory, it follows the
path of each file that is included, and it reads the texts of the files it finds. If a second file
system answers these questions alike, reading the same definitions there finds the same. The problems
that are reported can differ, because a file that cannot be included can be missing for another
reason.

A fresh record answers for the fragments, for the texts of the files that were read, and for the
inclusions that led to nothing. Where the other inclusions lead is not recorded, so it is assumed of
them that they lead where they led (`Steady`).
-/

namespace Menus

namespace OpenFile

/-- The file includes the file at a path. -/
def Includes (file : OpenFile) (path : String) : Prop :=
  ∃ name line, Statement.inclusion name line ∈ file.statements ∧ file.inclusionPath name = path

/-- Only where the file is decides which file it includes under a name. -/
theorem inclusionPath_eq {file other : OpenFile} (same : other.location = file.location)
    (name : String) : other.inclusionPath name = file.inclusionPath name := by
  rw [inclusionPath, inclusionPath, same]

/-- Which file it includes under a name is known from where it is. -/
theorem inclusionPath_here (file : OpenFile) (name : String) :
    file.inclusionPath name = OpenFile.inclusionPath ⟨file.location, [], []⟩ name :=
  inclusionPath_eq rfl name

end OpenFile

namespace Reading

variable {system : FileSystem} {digest : ByteArray → String} {reading : Reading} {file : OpenFile}
  {outer : List OpenFile} {rest : List Statement}

/-- The end of a file is reached. -/
theorem finish_end (left : file.statements = []) :
    finish system digest reading (file :: outer) =
      finish system digest { reading with diagnostics := reading.diagnostics ++ file.problems }
        outer := by
  rw [finish]
  split <;> simp_all

/-- A contribution is added. -/
theorem finish_contribute {contribution : Contribution}
    (left : file.statements = .contribute contribution :: rest) :
    finish system digest reading (file :: outer) =
      finish system digest { reading with registry := reading.registry.contribute contribution }
        ({ file with statements := rest } :: outer) := by
  rw [finish]
  split <;> simp_all

/-- A problem is noted. -/
theorem finish_problem {problem : Diagnostic} (left : file.statements = .problem problem :: rest) :
    finish system digest reading (file :: outer) =
      finish system digest reading ({ file.report problem with statements := rest } :: outer) := by
  rw [finish]
  split <;> simp_all

/-- The path of a file to include is followed. -/
theorem finish_inclusion {name : String} {line : Nat}
    (left : file.statements = .inclusion name line :: rest) :
    finish system digest reading (file :: outer) =
      match system.locatedText (file.inclusionPath name) with
      | .ok (place, text) =>
        if reading.hasRead place then
          finish system digest reading ({ file with statements := rest } :: outer)
        else
          finish system digest (reading.meet digest place text)
            (.ofText place text :: { file with statements := rest } :: outer)
      | .error cause =>
        finish system digest
          { reading with missing := reading.missing ++ [file.inclusionPath name] }
          ({ file.report (.inclusionFailed (Location.path file.location) line name cause.message)
              with statements := rest } :: outer) := by
  rw [finish]
  split
  · simp_all
  · simp_all
  · simp_all
  · rename_i split
    rw [left] at split
    cases split
    dsimp only
    split <;> rename_i found <;> rw [found]
    rfl

/-- What one reading met and missed, another did as well. -/
structure Within (reading final : Reading) : Prop where
  sources : reading.sources ⊆ final.sources
  missing : reading.missing ⊆ final.missing

theorem Within.refl (reading : Reading) : reading.Within reading :=
  ⟨List.Subset.refl _, List.Subset.refl _⟩

theorem Within.trans {first second third : Reading} (within : first.Within second)
    (further : second.Within third) : first.Within third :=
  ⟨List.Subset.trans within.sources further.sources,
    List.Subset.trans within.missing further.missing⟩

/-- Meeting a file adds a source. -/
theorem within_meet (reading : Reading) (digest : ByteArray → String) (place : Location)
    (text : String) : reading.Within (reading.meet digest place text) :=
  ⟨List.subset_append_left _ _, List.Subset.refl _⟩

/-- Reading on forgets nothing. -/
theorem within_finish (stack : List OpenFile) :
    reading.Within (finish system digest reading stack) := by
  fun_induction finish system digest reading stack with
  | case1 => exact .refl _
  | case2 _ _ _ _ inductionHypothesis | case3 _ _ _ _ _ _ inductionHypothesis =>
    exact ⟨inductionHypothesis.sources, inductionHypothesis.missing⟩
  | case4 | case5 => assumption
  | case6 reading _ _ _ _ _ _ _ place text _ _ inductionHypothesis =>
    exact (within_meet reading digest place text).trans inductionHypothesis
  | case7 reading _ _ _ _ _ _ _ _ _ _ inductionHypothesis =>
    exact ⟨inductionHypothesis.sources,
      List.Subset.trans (List.subset_append_left _ _) inductionHypothesis.missing⟩

/-- Every source is a text in the file system, under its digest. -/
def Backed (system : FileSystem) (digest : ByteArray → String) (reading : Reading) : Prop :=
  ∀ source ∈ reading.sources, ∃ text,
    system.textAt source.location = .ok text ∧ source.digest = digest text.toUTF8

theorem Backed.meet (backed : reading.Backed system digest) {place : Location} {text : String}
    (stands : system.textAt place = .ok text) :
    (reading.meet digest place text).Backed system digest :=
  List.forall_mem_append.mpr
    ⟨backed, List.forall_mem_singleton.mpr ⟨text, stands, rfl⟩⟩

end Reading

namespace FileSystem

variable {system : FileSystem} {path : String} {place : Location} {text : String}

/-- A file that is found by its path is one the path leads to. -/
theorem locatedText_eq_ok_iff :
    system.locatedText path = .ok (place, text) ↔
      system.locate .use path = .ok place ∧ system.textAt place = .ok text := by
  cases located : system.locate .use path with
  | error cause => simp [locatedText, located, bind, Except.bind]
  | ok found =>
    cases taken : system.textAt found with
    | error cause =>
      simp only [locatedText, located, taken, bind, Except.bind, reduceCtorEq, Except.ok.injEq,
        false_iff, not_and]
      rintro rfl
      simp [taken]
    | ok content =>
      simp only [locatedText, located, taken, bind, Except.bind, pure, Except.pure,
        Except.ok.injEq, Prod.mk.injEq]
      constructor
      · rintro ⟨rfl, rfl⟩
        exact ⟨rfl, taken⟩
      · rintro ⟨rfl, read⟩
        exact ⟨rfl, Except.ok.inj (taken.symm.trans read)⟩

/-- A text has the bytes it was read from. -/
theorem toUTF8_of_fromUTF8? {content : ByteArray} (decoded : String.fromUTF8? content = some text) :
    text.toUTF8 = content := by
  unfold String.fromUTF8? at decoded
  split at decoded
  · cases decoded
    rfl
  · cases decoded

/-- A text is read where a file has its bytes, if the path of the file is not refused. -/
theorem textAt_eq_ok_iff :
    system.textAt place = .ok text ↔
      refusalOf? place.path = none ∧ system.node? place = some (.file text.toUTF8) := by
  cases refused : refusalOf? place.path with
  | some cause => simp [textAt, refused]
  | none =>
    simp only [textAt, refused, true_and]
    constructor
    · intro read
      cases contained : system.contentAt place with
      | error cause => simp [contained, bind, Except.bind] at read
      | ok content =>
        simp only [contained, bind, Except.bind, asText] at read
        split at read
        · rename_i decoded
          cases read
          rw [toUTF8_of_fromUTF8? decoded]
          exact file_of_contentAt contained
        · cases read
    · intro stands
      have contained : system.contentAt place = .ok text.toUTF8 := by rw [contentAt, stands]
      simp only [contained, bind, Except.bind, asText, fromUTF8?_toUTF8]

/-- A text is read from the file it was written to. -/
theorem textAt_of_file (usable : refusalOf? place.path = none)
    (stands : system.node? place = some (.file text.toUTF8)) : system.textAt place = .ok text :=
  textAt_eq_ok_iff.mpr ⟨usable, stands⟩

/-- What is no link is found by its path. -/
theorem locate_path {node : Node} (reachable : place.Reachable) (usable : refusalOf? place.path = none)
    (stands : system.node? place = some node) (noLink : node.isLink = false) :
    system.locate .use place.path = .ok place := by
  rw [locate, flawOf?_of_refusalOf? usable]
  exact follow_path (by decide) reachable stands noLink

/-- A text is found by the path of the file it stands in. -/
theorem locatedText_path (reachable : place.Reachable) (usable : refusalOf? place.path = none)
    (stands : system.node? place = some (.file text.toUTF8)) :
    system.locatedText place.path = .ok (place, text) :=
  locatedText_eq_ok_iff.mpr
    ⟨locate_path reachable usable stands rfl, textAt_of_file usable stands⟩

/-- No text is found by the path of a name that is missing in the root. -/
theorem locatedText_path_of_missing {name : String} (reachable : Location.Reachable [name])
    (flawless : flawOf? (Location.path [name]) = none) (absent : system.node? [name] = none) :
    system.locatedText (Location.path [name]) = .error .notFound := by
  rw [locatedText, locate, flawless]
  simp only [follow_path_of_missing reachable absent]
  rfl

end FileSystem

namespace Reading

variable {system : FileSystem} {digest : ByteArray → String} {reading : Reading}
  {stack : List OpenFile}

/-- Reading on meets files that stand in the file system. -/
theorem Backed.finish (backed : reading.Backed system digest) (stack : List OpenFile) :
    (finish system digest reading stack).Backed system digest := by
  fun_induction Reading.finish system digest reading stack with
  | case1 => exact backed
  | case2 _ _ _ _ inductionHypothesis => exact inductionHypothesis backed
  | case3 _ _ _ _ _ _ inductionHypothesis => exact inductionHypothesis backed
  | case4 _ _ _ _ _ _ inductionHypothesis => exact inductionHypothesis backed
  | case5 _ _ _ _ _ _ _ _ _ _ _ _ inductionHypothesis => exact inductionHypothesis backed
  | case6 _ _ _ _ _ _ _ _ _ _ found _ inductionHypothesis =>
    exact inductionHypothesis (backed.meet (FileSystem.locatedText_eq_ok_iff.mp found).2)
  | case7 _ _ _ _ _ _ _ _ _ _ _ inductionHypothesis => exact inductionHypothesis backed

/-- Reading on contributes templates. -/
theorem isTemplates_finish (templates : reading.registry.IsTemplates)
    (stated : ∀ file ∈ stack, ∀ statement ∈ file.statements, statement.IsTemplate) :
    (finish system digest reading stack).registry.IsTemplates := by
  fun_induction Reading.finish system digest reading stack with
  | case1 => exact templates
  | case2 _ _ _ _ inductionHypothesis =>
    exact inductionHypothesis templates (List.forall_mem_cons.mp stated).2
  | case3 _ file _ contribution _ left inductionHypothesis =>
    rw [List.forall_mem_cons, left, List.forall_mem_cons] at stated
    exact inductionHypothesis (templates.contribute stated.1.1)
      (List.forall_mem_cons.mpr ⟨stated.1.2, stated.2⟩)
  | case4 _ file _ _ _ left inductionHypothesis =>
    rw [List.forall_mem_cons, left, List.forall_mem_cons] at stated
    exact inductionHypothesis templates (List.forall_mem_cons.mpr ⟨stated.1.2, stated.2⟩)
  | case5 _ file _ _ _ _ left _ _ _ _ _ inductionHypothesis =>
    rw [List.forall_mem_cons, left, List.forall_mem_cons] at stated
    exact inductionHypothesis templates (List.forall_mem_cons.mpr ⟨stated.1.2, stated.2⟩)
  | case6 _ file _ _ _ _ left _ _ _ _ _ inductionHypothesis =>
    rw [List.forall_mem_cons, left, List.forall_mem_cons] at stated
    refine inductionHypothesis templates (List.forall_mem_cons.mpr ⟨?_, ?_⟩)
    · exact Statement.isTemplate_readFile _ _
    · exact List.forall_mem_cons.mpr ⟨stated.1.2, stated.2⟩
  | case7 _ file _ _ _ _ left _ _ _ _ inductionHypothesis =>
    rw [List.forall_mem_cons, left, List.forall_mem_cons] at stated
    exact inductionHypothesis templates (List.forall_mem_cons.mpr ⟨stated.1.2, stated.2⟩)

end Reading

/-- The path of an inclusion leads to the file it led to in an earlier file system. If it led to none,
the path is looked at again whenever the record is, unless it is too long to be looked at: then it
has to lead to none as before. -/
structure LeadsAlike (before after : FileSystem) (path : String) : Prop where
  found : ∀ place text, before.locatedText path = .ok (place, text) →
    after.locate .use path = .ok place
  lost : ∀ cause, before.locatedText path = .error cause →
    FileSystem.pathLimit < path.utf8ByteSize → ∃ cause, after.locatedText path = .error cause

/-- The inclusions in the files that were loaded lead where they led. -/
def Steady (before after : FileSystem) (loaded : Loaded) : Prop :=
  ∀ source ∈ loaded.sources, ∀ text, before.textAt source.location = .ok text →
    ∀ path, (OpenFile.ofText source.location text).Includes path → LeadsAlike before after path

namespace Reading

/-- What a reading found in an earlier file system is so still. -/
structure Upheld (before after : FileSystem) (reading : Reading) : Prop where
  steady : ∀ source ∈ reading.sources, ∀ text, before.textAt source.location = .ok text →
    ∀ path, (OpenFile.ofText source.location text).Includes path → LeadsAlike before after path
  texts : ∀ source ∈ reading.sources, ∀ text node, before.textAt source.location = .ok text →
    after.node? source.location = some node → node.isLink = false →
    after.textAt source.location = .ok text
  missing : ∀ path ∈ reading.missing, after.isPresent path = false

/-- Two readings found the same, the problems they report apart. -/
structure Alike (reading other : Reading) : Prop where
  registry : other.registry = reading.registry
  sources : other.sources = reading.sources
  missing : other.missing = reading.missing

/-- The same work is left, whatever problems were found so far. -/
abbrev SameWork : List OpenFile → List OpenFile → Prop :=
  List.Forall₂ fun file other =>
    other.location = file.location ∧ other.statements = file.statements

/-- The inclusions left in open files lead where they led. -/
def SteadyWork (before after : FileSystem) (stack : List OpenFile) : Prop :=
  ∀ file ∈ stack, ∀ path, file.Includes path → LeadsAlike before after path

/-- With a statement handled, less is left. -/
theorem SteadyWork.behind {before after : FileSystem} {file behind : OpenFile}
    {outer : List OpenFile} {statement : Statement} (steady : SteadyWork before after (file :: outer))
    (left : file.statements = statement :: behind.statements)
    (place : behind.location = file.location) : SteadyWork before after (behind :: outer) := by
  refine List.forall_mem_cons.mpr ⟨?_, (List.forall_mem_cons.mp steady).2⟩
  rintro path ⟨name, line, member, rfl⟩
  rw [OpenFile.inclusionPath_eq place]
  exact steady file List.mem_cons_self _
    ⟨name, line, left ▸ List.mem_cons_of_mem statement member, rfl⟩

theorem Alike.hasRead_eq {reading other : Reading} (alike : reading.Alike other)
    (place : Location) : other.hasRead place = reading.hasRead place := by
  rw [hasRead, hasRead, alike.sources]

theorem Alike.meet {reading other : Reading} (alike : reading.Alike other)
    (digest : ByteArray → String) (place : Location) (text : String) :
    (reading.meet digest place text).Alike (other.meet digest place text) :=
  ⟨alike.registry, by rw [Reading.meet, Reading.meet, alike.sources], alike.missing⟩

/-- A place that was met is that of a source. -/
theorem exists_source {reading : Reading} {place : Location} (met : reading.hasRead place) :
    ∃ source ∈ reading.sources, source.location = place := by
  obtain ⟨source, member, same⟩ := List.any_eq_true.mp met
  exact ⟨source, member, beq_iff_eq.mp same⟩

section Rereading

variable {before after : FileSystem} {final : Reading} {path : String}

/-- An included file is found again, and says the same. -/
theorem Upheld.found (upheld : final.Upheld before after) (leads : LeadsAlike before after path)
    {place : Location} {text : String} (found : before.locatedText path = .ok (place, text))
    {source : Source} (member : source ∈ final.sources) (same : source.location = place) :
    after.locatedText path = .ok (place, text) := by
  subst same
  have located := leads.found _ _ found
  obtain ⟨node, stands, noLink⟩ := FileSystem.stands_of_follow (FileSystem.follow_of_locate located)
  have read := upheld.texts source member text node (FileSystem.locatedText_eq_ok_iff.mp found).2
    stands noLink
  exact FileSystem.locatedText_eq_ok_iff.mpr ⟨located, read⟩

/-- A file that could not be included still cannot be. -/
theorem Upheld.lost (upheld : final.Upheld before after) (leads : LeadsAlike before after path)
    {cause : AccessError} (lost : before.locatedText path = .error cause)
    (missed : path ∈ final.missing) : ∃ cause, after.locatedText path = .error cause := by
  by_cases long : FileSystem.pathLimit < path.utf8ByteSize
  · exact leads.lost cause lost long
  · have absent := upheld.missing path missed
    rw [FileSystem.isPresent, FileSystem.resolve_eq_locate (Nat.not_lt.mp long)] at absent
    cases located : after.locate .use path with
    | ok place => simp [located] at absent
    | error other => exact ⟨other, by simp [FileSystem.locatedText, located, bind, Except.bind]⟩

/-- Reading on after changes finds the same, as far as what is found in the end is upheld. -/
theorem finish_alike {digest : ByteArray → String} {reading other : Reading}
    {stack otherStack : List OpenFile} (upheld : final.Upheld before after)
    (within : (finish before digest reading stack).Within final) (alike : reading.Alike other)
    (work : SameWork stack otherStack) (steady : SteadyWork before after stack) :
    (finish before digest reading stack).Alike (finish after digest other otherStack) := by
  fun_induction finish before digest reading stack generalizing other otherStack with
  | case1 =>
    cases work
    simpa only [finish] using alike
  | case2 reading file outer left inductionHypothesis =>
    cases work with | cons same outerWork
    rw [finish_end (same.2.trans left)]
    exact inductionHypothesis within ⟨alike.registry, alike.sources, alike.missing⟩ outerWork
      (List.forall_mem_cons.mp steady).2
  | case3 reading file outer contribution rest left inductionHypothesis =>
    cases work with | cons same outerWork
    rw [finish_contribute (same.2.trans left)]
    exact inductionHypothesis within
      ⟨congrArg (·.contribute contribution) alike.registry, alike.sources, alike.missing⟩
      (.cons ⟨same.1, rfl⟩ outerWork) (steady.behind left rfl)
  | case4 reading file outer problem rest left inductionHypothesis =>
    cases work with | cons same outerWork
    rw [finish_problem (same.2.trans left)]
    exact inductionHypothesis within alike (.cons ⟨same.1, rfl⟩ outerWork) (steady.behind left rfl)
  | case5 reading file outer name line rest left path place text found met =>
    rename_i inductionHypothesis
    cases work with | cons same outerWork
    obtain ⟨source, member, isPlace⟩ := exists_source met
    have leads := steady file List.mem_cons_self path ⟨name, line, left ▸ List.mem_cons_self, rfl⟩
    have foundAgain := upheld.found leads found
      (within.sources ((within_finish _).sources member)) isPlace
    rw [finish_inclusion (same.2.trans left), OpenFile.inclusionPath_eq same.1, foundAgain]
    simp only [alike.hasRead_eq, met, if_true]
    exact inductionHypothesis within alike (.cons ⟨same.1, rfl⟩ outerWork) (steady.behind left rfl)
  | case6 reading file outer name line rest left path place text found unmet =>
    rename_i inductionHypothesis
    cases work with | cons same outerWork
    have member : ⟨place, digest text.toUTF8⟩ ∈ final.sources :=
      within.sources ((within_finish _).sources
        (List.mem_append_right _ (List.mem_singleton_self _)))
    have leads := steady file List.mem_cons_self path ⟨name, line, left ▸ List.mem_cons_self, rfl⟩
    have foundAgain := upheld.found leads found member rfl
    rw [finish_inclusion (same.2.trans left), OpenFile.inclusionPath_eq same.1, foundAgain]
    simp only [alike.hasRead_eq, unmet]
    refine inductionHypothesis within (alike.meet digest place text)
      (.cons ⟨rfl, rfl⟩ (.cons ⟨same.1, rfl⟩ outerWork)) (List.forall_mem_cons.mpr ⟨?_, ?_⟩)
    · exact upheld.steady _ member text (FileSystem.locatedText_eq_ok_iff.mp found).2
    · exact steady.behind left rfl
  | case7 reading file outer name line rest left path cause lost =>
    rename_i inductionHypothesis
    cases work with | cons same outerWork
    have missed : path ∈ final.missing :=
      within.missing ((within_finish _).missing
        (List.mem_append_right _ (List.mem_singleton_self _)))
    have leads := steady file List.mem_cons_self path ⟨name, line, left ▸ List.mem_cons_self, rfl⟩
    obtain ⟨otherCause, lostAgain⟩ := upheld.lost leads lost missed
    rw [finish_inclusion (same.2.trans left), OpenFile.inclusionPath_eq same.1, lostAgain]
    exact inductionHypothesis within
      ⟨alike.registry, alike.sources, congrArg (· ++ [path]) alike.missing⟩
      (.cons ⟨same.1, rfl⟩ outerWork) (steady.behind left rfl)

end Rereading

section Roots

variable {system before after : FileSystem} {digest : ByteArray → String}
  {reading next other final : Reading} {root : Location} {roots : List Location}

/-- A file that is read is a text; if it was not met before, it is met now and read to its end. -/
theorem readRoot_eq_ok (read : readRoot system digest reading root = .ok next) :
    ∃ text, system.textAt root = .ok text ∧
      (reading.hasRead root ∧ next = reading ∨
        reading.hasRead root = false ∧
          next = finish system digest (reading.meet digest root text) [.ofText root text]) := by
  rw [readRoot] at read
  split at read
  · cases read
  · rename_i text stands
    refine ⟨text, stands, ?_⟩
    split at read
    · rename_i met
      exact .inl ⟨met, (Except.ok.inj read).symm⟩
    · rename_i unmet
      exact .inr ⟨by simpa using unmet, (Except.ok.inj read).symm⟩

/-- Reading one file forgets nothing. -/
theorem within_readRoot (read : readRoot system digest reading root = .ok next) :
    reading.Within next := by
  obtain ⟨text, _, ⟨_, rfl⟩ | ⟨_, rfl⟩⟩ := readRoot_eq_ok read
  · exact .refl _
  · exact (within_meet reading digest root text).trans (within_finish _)

/-- A file that was read is a source. -/
theorem exists_source_of_readRoot (read : readRoot system digest reading root = .ok next) :
    ∃ source ∈ next.sources, source.location = root := by
  obtain ⟨text, _, ⟨met, rfl⟩ | ⟨_, rfl⟩⟩ := readRoot_eq_ok read
  · exact exists_source met
  · exact ⟨⟨root, digest text.toUTF8⟩, (within_finish _).sources
      (List.mem_append_right _ (List.mem_singleton_self _)), rfl⟩

/-- What reading files one after another does to the first of them and to the others. -/
theorem foldlM_readRoot_cons
    (read : (root :: roots).foldlM (readRoot system digest) reading = .ok final) :
    ∃ next, readRoot system digest reading root = .ok next ∧
      roots.foldlM (readRoot system digest) next = .ok final := by
  rw [List.foldlM_cons] at read
  cases first : readRoot system digest reading root with
  | error problem => simp [first, bind, Except.bind] at read
  | ok next => exact ⟨next, rfl, by simpa [first, bind, Except.bind] using read⟩

/-- Reading files one after another forgets nothing. -/
theorem within_foldlM (read : roots.foldlM (readRoot system digest) reading = .ok final) :
    reading.Within final := by
  induction roots generalizing reading with
  | nil =>
    cases read
    exact .refl _
  | cons root roots inductionHypothesis =>
    obtain ⟨next, first, others⟩ := foldlM_readRoot_cons read
    exact (within_readRoot first).trans (inductionHypothesis others)

/-- What reading files one after another meets stands in the file system. -/
theorem Backed.foldlM (backed : reading.Backed system digest)
    (read : roots.foldlM (readRoot system digest) reading = .ok final) :
    final.Backed system digest := by
  induction roots generalizing reading with
  | nil =>
    cases read
    exact backed
  | cons root roots inductionHypothesis =>
    obtain ⟨next, first, others⟩ := foldlM_readRoot_cons read
    refine inductionHypothesis ?_ others
    obtain ⟨text, stands, ⟨_, rfl⟩ | ⟨_, rfl⟩⟩ := readRoot_eq_ok first
    · exact backed
    · exact (backed.meet stands).finish _

/-- Reading files one after another contributes templates. -/
theorem isTemplates_foldlM (templates : reading.registry.IsTemplates)
    (read : roots.foldlM (readRoot system digest) reading = .ok final) :
    final.registry.IsTemplates := by
  induction roots generalizing reading with
  | nil =>
    cases read
    exact templates
  | cons root roots inductionHypothesis =>
    obtain ⟨next, first, others⟩ := foldlM_readRoot_cons read
    refine inductionHypothesis ?_ others
    obtain ⟨text, _, ⟨_, rfl⟩ | ⟨_, rfl⟩⟩ := readRoot_eq_ok first
    · exact templates
    · exact isTemplates_finish templates
        (List.forall_mem_singleton.mpr (Statement.isTemplate_readFile _ _))

/-- A file that stands where it stood is read again and gives the same. -/
theorem readRoot_alike (upheld : final.Upheld before after)
    (read : readRoot before digest reading root = .ok next) (within : next.Within final)
    (alike : reading.Alike other)
    (stands : ∃ node, after.node? root = some node ∧ node.isLink = false) :
    ∃ otherNext, readRoot after digest other root = .ok otherNext ∧ next.Alike otherNext := by
  obtain ⟨source, met, rfl⟩ := exists_source_of_readRoot read
  have member := within.sources met
  obtain ⟨node, standing, noLink⟩ := stands
  obtain ⟨text, said, again⟩ := readRoot_eq_ok read
  have unchanged := upheld.texts source member text node said standing noLink
  rw [readRoot, unchanged]
  simp only [alike.hasRead_eq]
  rcases again with ⟨passed, rfl⟩ | ⟨unmet, rfl⟩
  · exact ⟨other, if_pos passed, alike⟩
  · refine ⟨_, if_neg (by simp [unmet]), ?_⟩
    refine finish_alike upheld within (alike.meet digest _ text) (.cons ⟨rfl, rfl⟩ .nil) ?_
    exact List.forall_mem_singleton.mpr (upheld.steady source member text said)

/-- Files that stand where they stood are read again and give the same. -/
theorem foldlM_alike (upheld : final.Upheld before after)
    (read : roots.foldlM (readRoot before digest) reading = .ok next) (within : next.Within final)
    (alike : reading.Alike other)
    (stand : ∀ root ∈ roots, ∃ node, after.node? root = some node ∧ node.isLink = false) :
    ∃ otherNext, roots.foldlM (readRoot after digest) other = .ok otherNext ∧
      next.Alike otherNext := by
  induction roots generalizing reading other with
  | nil =>
    cases read
    exact ⟨other, rfl, alike⟩
  | cons root roots inductionHypothesis =>
    obtain ⟨middle, first, others⟩ := foldlM_readRoot_cons read
    rw [List.forall_mem_cons] at stand
    obtain ⟨otherMiddle, otherFirst, middleAlike⟩ :=
      readRoot_alike upheld first ((within_foldlM others).trans within) alike stand.1
    obtain ⟨otherNext, otherOthers, nextAlike⟩ := inductionHypothesis others middleAlike stand.2
    refine ⟨otherNext, ?_, nextAlike⟩
    rw [List.foldlM_cons, otherFirst]
    exact otherOthers

end Roots

end Reading

/-- What a reading of definitions with the given fragments is loaded as. -/
def Reading.toLoaded (reading : Reading) (fragments : List Location) : Loaded where
  registry := reading.registry
  diagnostics := reading.diagnostics
  sources := reading.sources
  fragments
  missing := reading.missing
  fromCache := false

namespace FileSystem

variable {system : FileSystem} {digest : ByteArray → String} {root : Location} {loaded : Loaded}

/-- The files that are read for the definitions at a location. -/
def rootsAt (system : FileSystem) (root : Location) : List Location :=
  if system.isDirectoryAt root then system.fragments root else [root]

/-- Definitions are loaded by reading their files one after another; a directory has to have
some. -/
theorem readAt_eq_ok_iff :
    system.readAt digest root = .ok loaded ↔
      (system.isDirectoryAt root → system.fragments root ≠ []) ∧
        ∃ reading, (system.rootsAt root).foldlM (Reading.readRoot system digest) {} = .ok reading ∧
          loaded = reading.toLoaded (system.fragments root) := by
  have ending (roots : List Location) :
      (do
        let reading ← roots.foldlM (Reading.readRoot system digest) {}
        return reading.toLoaded (system.fragments root) : Except LoadError Loaded) = .ok loaded ↔
        ∃ reading, roots.foldlM (Reading.readRoot system digest) {} = .ok reading ∧
          loaded = reading.toLoaded (system.fragments root) := by
    cases roots.foldlM (Reading.readRoot system digest) {} with
    | error problem => simp [bind, Except.bind]
    | ok reading => simp [bind, Except.bind, pure, Except.pure, eq_comm]
  rw [readAt, rootsAt]
  by_cases directory : system.isDirectoryAt root
  · by_cases empty : system.fragments root = []
    · simp [directory, empty, bind, Except.bind]
    · have nonempty : (system.fragments root).isEmpty = false := by simpa using empty
      simpa [directory, empty, nonempty, bind, Except.bind, Reading.toLoaded] using
        ending (system.fragments root)
  · simpa [directory, bind, Except.bind, Reading.toLoaded] using ending [root]

/-- What is read from files is made of templates. -/
theorem isTemplates_of_readAt (read : system.readAt digest root = .ok loaded) :
    loaded.registry.IsTemplates := by
  obtain ⟨_, reading, all, rfl⟩ := readAt_eq_ok_iff.mp read
  exact Reading.isTemplates_foldlM Registry.isTemplates_empty all

/-- No text is read from a directory. -/
theorem isDirectoryAt_of_textAt {text : String} (read : system.textAt root = .ok text) :
    system.isDirectoryAt root = false := by
  rw [isDirectoryAt, (textAt_eq_ok_iff.mp read).2]
  rfl

/-- A fragment is a file. -/
theorem stands_of_mem_fragments {location : Location} (member : location ∈ system.fragments root) :
    ∃ node, system.node? location = some node ∧ node.isLink = false := by
  rw [fragments] at member
  split at member
  · have below := (List.mem_filter.mp member).1
    rw [filesBelow] at below
    split at below
    · cases below
    · rename_i node stands
      obtain ⟨inside, among, rfl⟩ := List.mem_map.mp ((List.mergeSort_perm _ _).mem_iff.mp below)
      obtain ⟨_, isFile⟩ := List.mem_filter.mp among
      obtain ⟨found, standsInside, isFile⟩ := Option.any_eq_true _ _ |>.mp isFile
      refine ⟨found, ?_, ?_⟩
      · rw [node?, Node.find?_append, ← node?, stands]
        exact standsInside
      · cases found with
        | file | directory => rfl
        | link => cases isFile
  · cases member

end FileSystem

section Freshness

variable {scheme : CacheScheme} (injective : Function.Injective scheme.digest)
  {before after : FileSystem} (proper : after.Proper) {root : Location} {loaded : Loaded}

include injective proper

/-- A source that is current says what it said, if something other than a link stands in its
place. -/
theorem Source.textAt_of_isCurrent {source : Source} {text : String} {node : Node}
    (current : source.isCurrent scheme after) (digested : source.digest = scheme.digest text.toUTF8)
    (stands : after.node? source.location = some node) (noLink : node.isLink = false) :
    after.textAt source.location = .ok text := by
  rw [isCurrent] at current
  split at current
  · rename_i content read
    obtain ⟨place, resolved, contained⟩ := FileSystem.contentAt_of_content read
    have here := FileSystem.place_of_path_of_stands (proper _ _ stands) stands noLink
      (FileSystem.follow_of_resolve resolved)
    have same : content = text.toUTF8 := injective ((beq_iff_eq.mp current).trans digested)
    rw [here, same] at contained
    exact FileSystem.textAt_of_file (FileSystem.usable_of_resolve resolved)
      (FileSystem.file_of_contentAt contained)
  · cases current

/-- A fresh record upholds what was read, if inclusions lead where they led. -/
theorem upheld_of_isFresh {reading : Reading} {fragments : List Location}
    (backed : reading.Backed before scheme.digest)
    (fresh : (CacheRecord.ofLoaded (reading.toLoaded fragments)).isFresh scheme after
      (after.fragments root))
    (steady : Steady before after (reading.toLoaded fragments)) :
    reading.Upheld before after := by
  simp only [CacheRecord.isFresh, CacheRecord.ofLoaded, Reading.toLoaded, Bool.and_eq_true,
    Bool.not_eq_true', List.any_eq_false, List.all_eq_true] at fresh
  obtain ⟨⟨_, missing⟩, current⟩ := fresh
  refine ⟨steady, ?_, ?_⟩
  · intro source member text node said stands noLink
    obtain ⟨other, standing, digested⟩ := backed source member
    cases said.symm.trans standing
    exact Source.textAt_of_isCurrent injective proper (current source member) digested stands noLink
  · intro path member
    exact Bool.eq_false_iff.mpr (missing path member)

/-- As long as a record of a reading is fresh and the inclusions lead where they led, reading again
gives the same, except for the problems reported. -/
theorem FileSystem.readAt_of_isFresh (read : before.readAt scheme.digest root = .ok loaded)
    (stands : ∃ node, after.node? root = some node ∧ node.isLink = false)
    (fresh : (CacheRecord.ofLoaded loaded).isFresh scheme after (after.fragments root))
    (steady : Steady before after loaded) :
    ∃ diagnostics, after.readAt scheme.digest root = .ok { loaded with diagnostics } := by
  obtain ⟨nonempty, reading, all, rfl⟩ := readAt_eq_ok_iff.mp read
  have backed : reading.Backed before scheme.digest :=
    Reading.Backed.foldlM (fun _ member => absurd member List.not_mem_nil) all
  have upheld := upheld_of_isFresh injective proper backed fresh steady
  have fragments : before.fragments root = after.fragments root := by
    simp only [CacheRecord.isFresh, CacheRecord.ofLoaded, Reading.toLoaded, Bool.and_eq_true,
      beq_iff_eq] at fresh
    exact fresh.1.1.2
  -- The same files are to be read, and they all stand in the later file system: the fragments
  -- because they are listed there, a single file because the path of the definitions led to it.
  have ⟨roots, stand, filled⟩ : after.rootsAt root = before.rootsAt root ∧
      (∀ other ∈ before.rootsAt root, ∃ node, after.node? other = some node ∧ node.isLink = false) ∧
      (after.isDirectoryAt root → after.fragments root ≠ []) := by
    by_cases directory : before.isDirectoryAt root
    · have still : after.isDirectoryAt root := by
        by_contra gone
        exact nonempty directory (fragments.trans (if_neg gone))
      rw [rootsAt, rootsAt, if_pos directory, if_pos still, fragments]
      exact ⟨rfl, fun other => stands_of_mem_fragments, fun _ => fragments ▸ nonempty directory⟩
    · rw [rootsAt, if_neg directory] at all
      obtain ⟨next, first, others⟩ := Reading.foldlM_readRoot_cons all
      cases others
      obtain ⟨source, member, rfl⟩ := Reading.exists_source_of_readRoot first
      obtain ⟨text, said, _⟩ := Reading.readRoot_eq_ok first
      obtain ⟨node, standing, noLink⟩ := stands
      have still := isDirectoryAt_of_textAt (upheld.texts source member text node said standing noLink)
      rw [rootsAt, rootsAt, if_neg directory, if_neg (Bool.eq_false_iff.mp still)]
      exact ⟨rfl, List.forall_mem_singleton.mpr ⟨node, standing, noLink⟩,
        fun isDirectory => absurd isDirectory (Bool.eq_false_iff.mp still)⟩
  obtain ⟨again, allAgain, alike⟩ := Reading.foldlM_alike upheld all (.refl _)
    ⟨rfl, rfl, rfl⟩ stand
  refine ⟨again.diagnostics, readAt_eq_ok_iff.mpr ⟨filled, again, roots ▸ allAgain, ?_⟩⟩
  rw [Reading.toLoaded, Reading.toLoaded, alike.registry, alike.sources, alike.missing, fragments]

end Freshness

end Menus
