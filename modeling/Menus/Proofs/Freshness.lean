import Menus.Proofs.Records

/-!
# Loads through a cache, between changes

Changes of a file system and loads that share one cache follow each other in any order. Every record
in the cache was then made by an earlier load of the same definitions: that holds at first, when there
are no records, and each step keeps it, so it holds after every run. So a load that is answered from
the cache is answered with what reading gave when its record was made; and as the record is fresh,
reading would give the same now, as long as the inclusions lead where they led then.

That last condition cannot be left out. The record says nothing about where an inclusion led, so
removing or redirecting a link goes unnoticed.
-/

namespace Menus

namespace CacheScheme

/-- A load answers by reading and leaves the record of what it read in its place. -/
def Keeps (scheme : CacheScheme) (directory : String) (cache : Location) (system : FileSystem)
    (bypass : Bool) (path : String) (root : Location) : Prop :=
  ∃ loaded, system.definitions path = .ok root ∧
    (scheme.load system (some directory) bypass path).2 = .ok loaded ∧ loaded.fromCache = false ∧
    (scheme.load system (some directory) bypass path).1.node? (scheme.slot cache root) =
      some (.file (scheme.encode (.ofLoaded loaded)))

open Classical in
/-- For each root the file system in which its record was made, once more definitions are loaded. -/
noncomputable def madeAfter (scheme : CacheScheme) (directory : String) (cache : Location)
    (system : FileSystem) (bypass : Bool) (path : String)
    (made : Location → Option FileSystem) (root : Location) : Option FileSystem :=
  if scheme.Keeps directory cache system bypass path root then some system else made root

/-- A run of changes and loads that share a cache: where it has led, and for each root the file system
in which the record of its definitions was made. -/
inductive Run (scheme : CacheScheme) (directory : String) (cache : Location) :
    FileSystem → (Location → Option FileSystem) → Prop
  /-- At first there are no records. -/
  | start {system : FileSystem} (proper : system.Proper)
      (vacant : ∀ root node, system.node? (scheme.slot cache root) = some node → scheme.Inert node)
      (leads : scheme.LeadsTo directory cache system) : Run scheme directory cache system fun _ => none
  | change {system : FileSystem} {made : Location → Option FileSystem}
      (earlier : Run scheme directory cache system made) (change : Change)
      (spared : scheme.Spares cache system (system.change change))
      (leads : scheme.LeadsTo directory cache (system.change change)) :
      Run scheme directory cache (system.change change) made
  | load {system : FileSystem} {made : Location → Option FileSystem}
      (earlier : Run scheme directory cache system made) (bypass : Bool) (path : String)
      (leads : scheme.LeadsTo directory cache
        (scheme.load system (some directory) bypass path).1) :
      Run scheme directory cache (scheme.load system (some directory) bypass path).1
        (scheme.madeAfter directory cache system bypass path made)

variable {scheme : CacheScheme} {directory : String} {cache : Location} {system : FileSystem}
  {bypass : Bool} {path : String} {made : Location → Option FileSystem} {root : Location}

/-- What holds after every run: everything in the place of a record is inert, or was made by reading
the definitions in the file system noted for them. -/
structure Accounted (scheme : CacheScheme) (directory : String) (cache : Location)
    (system : FileSystem) (made : Location → Option FileSystem) : Prop where
  proper : system.Proper
  leads : scheme.LeadsTo directory cache system
  records : ∀ root node, Location.Proper root →
    system.node? (scheme.slot cache root) = some node →
    scheme.Inert node ∨ ∃ moment loaded, made root = some moment ∧
      moment.readAt scheme.digest root = .ok loaded ∧
      node = .file (scheme.encode (.ofLoaded loaded))

/-- No link stands in the place of a record. -/
theorem Accounted.noLink (accounted : scheme.Accounted directory cache system made)
    (proper : root.Proper) (target : String) :
    system.node? (scheme.slot cache root) ≠ some (.link target) := by
  intro isLink
  rcases accounted.records root _ proper isLink with inert | ⟨_, _, _, _, isFile⟩
  · exact inert
  · cases isFile

/-- The record that a load leaves is that of a reading. -/
theorem Keeps.read (keeps : scheme.Keeps directory cache system bypass path root) {node : Node}
    (stands : (scheme.load system (some directory) bypass path).1.node? (scheme.slot cache root) =
      some node) :
    ∃ loaded, system.readAt scheme.digest root = .ok loaded ∧
      node = .file (scheme.encode (.ofLoaded loaded)) := by
  obtain ⟨loaded, found, answer, unserved, kept⟩ := keeps
  have isFile := Option.some.inj (stands.symm.trans kept)
  have loads : scheme.Loads system directory bypass path
    (scheme.load system (some directory) bypass path) := loads_load
  generalize scheme.load system (some directory) bypass path = outcome at *
  cases loads with
  | absent | failed => cases answer
  | served =>
    cases answer
    cases unserved
  | read foundThere read =>
    cases found.symm.trans foundThere
    cases answer
    exact ⟨_, read, isFile⟩

/-- A load that leaves no record for definitions leaves what stood in the place. -/
theorem Accounted.stood (accounted : scheme.Accounted directory cache system made)
    (injective : Function.Injective scheme.digest) (proper : root.Proper)
    (leads : scheme.LeadsTo directory cache (scheme.load system (some directory) bypass path).1)
    (leavesNone : ¬scheme.Keeps directory cache system bypass path root) {node : Node}
    (stands : (scheme.load system (some directory) bypass path).1.node? (scheme.slot cache root) =
      some node) :
    scheme.Inert node ∨ system.node? (scheme.slot cache root) = some node := by
  have loads : scheme.Loads system directory bypass path
    (scheme.load system (some directory) bypass path) := loads_load
  rw [Keeps] at leavesNone
  generalize scheme.load system (some directory) bypass path = outcome at *
  cases loads with
  | absent | served | failed => exact .inr stands
  | @read other loaded found read =>
    dsimp only at leads stands
    have otherProper := proper_of_definitions accounted.proper found
    rcases written_of_writeRecord leads (accounted.noLink otherProper) stands with
      isDirectory | stood | ⟨same, isFile⟩
    · obtain ⟨entries, rfl⟩ := Node.eq_directory isDirectory
      exact .inl trivial
    · exact .inr stood
    · have isRoot := slot_injective injective proper otherProper same
      subst isRoot isFile
      obtain ⟨_, reading, _, rfl⟩ := FileSystem.readAt_eq_ok_iff.mp read
      refine absurd ?_ leavesNone
      dsimp only
      exact ⟨_, found, rfl, rfl, stands⟩

/-- A load keeps records accounted for. -/
theorem Accounted.load (accounted : scheme.Accounted directory cache system made)
    (injective : Function.Injective scheme.digest) (bypass : Bool) (path : String)
    (leads : scheme.LeadsTo directory cache (scheme.load system (some directory) bypass path).1) :
    scheme.Accounted directory cache (scheme.load system (some directory) bypass path).1
      (scheme.madeAfter directory cache system bypass path made) := by
  refine ⟨proper_load accounted.proper, leads, ?_⟩
  intro root node proper stands
  rw [madeAfter]
  by_cases keeps : scheme.Keeps directory cache system bypass path root
  · obtain ⟨loaded, read, isFile⟩ := keeps.read stands
    exact .inr ⟨system, loaded, if_pos keeps, read, isFile⟩
  · rw [if_neg keeps]
    rcases accounted.stood injective proper leads keeps stands with inert | stood
    · exact .inl inert
    · exact accounted.records root node proper stood

/-- Records are accounted for after every run. -/
theorem Run.accounted (run : scheme.Run directory cache system made)
    (injective : Function.Injective scheme.digest) :
    scheme.Accounted directory cache system made := by
  induction run with
  | start proper vacant leads =>
    exact ⟨proper, leads, fun root node _ stands => .inl (vacant root node stands)⟩
  | change earlier change spared leads inductionHypothesis =>
    refine ⟨inductionHypothesis.proper.change change, leads, ?_⟩
    intro root node proper stands
    rcases spared root node stands with inert | stood
    · exact .inl inert
    · exact inductionHypothesis.records root node proper stood
  | load earlier bypass path leads inductionHypothesis =>
    exact inductionHypothesis.load injective bypass path leads

/-- The record of a reading is read back as it was kept. -/
theorem decode?_ofLoaded (decodes : ∀ record, scheme.decode? (scheme.encode record) =
      some { record with registry := record.registry.asTemplates }) {loaded : Loaded}
    (read : system.readAt scheme.digest root = .ok loaded) :
    scheme.decode? (scheme.encode (.ofLoaded loaded)) = some (.ofLoaded loaded) := by
  have templates := (FileSystem.isTemplates_of_readAt read).asTemplates_eq
  rw [decodes, CacheRecord.ofLoaded, templates]

/-- The record found for definitions is that of a reading in the file system noted for them. -/
theorem Accounted.served (accounted : scheme.Accounted directory cache system made)
    (faithful : scheme.Faithful) {record : CacheRecord} (proper : root.Proper)
    (fresh : scheme.freshRecord? system (scheme.recordPath directory (Location.path root)) root =
      some record) :
    ∃ moment loaded, made root = some moment ∧ moment.readAt scheme.digest root = .ok loaded ∧
      record = .ofLoaded loaded ∧ record.isFresh scheme system (system.fragments root) := by
  obtain ⟨content, stands, filled, decoded, isFresh⟩ :=
    file_of_freshRecord accounted.leads (accounted.noLink proper) fresh
  rcases accounted.records root _ proper stands with inert | ⟨moment, loaded, isMade, read, isFile⟩
  · rcases inert with empty | undecoded
    · exact absurd empty (Bool.eq_false_iff.mp filled)
    · cases decoded.symm.trans undecoded
  · have isEncoded : content = scheme.encode (.ofLoaded loaded) := Node.file.inj isFile
    rw [isEncoded, decode?_ofLoaded faithful.decodes read] at decoded
    exact ⟨moment, loaded, isMade, read, (Option.some.inj decoded).symm, isFresh⟩

/-- The registry an answer gives, or its error. -/
def registryOf (answer : Except LoadError Loaded) : Except LoadError Registry :=
  answer.map Loaded.registry

/-- If a load is answered from the cache, the inclusions lead where they led when the record was
made. -/
def SteadySince (scheme : CacheScheme) (directory : String) (made : Location → Option FileSystem)
    (system : FileSystem) (bypass : Bool) (path : String) : Prop :=
  ∀ root moment loaded answer, system.definitions path = .ok root → made root = some moment →
    moment.readAt scheme.digest root = .ok loaded →
    (scheme.load system (some directory) bypass path).2 = .ok answer → answer.fromCache →
    Steady moment system loaded

/-- After every run of changes and loads, a load gives the registry or the error that reading gives
now, whether or not it is answered from the cache; if it is, the inclusions have to lead where they
led when the record was made. -/
theorem loads_answer_as_reading (faithful : scheme.Faithful)
    (run : scheme.Run directory cache system made) (bypass : Bool) (path : String)
    (steady : scheme.SteadySince directory made system bypass path) :
    registryOf (scheme.load system (some directory) bypass path).2 =
      registryOf (system.read scheme.digest path) := by
  have accounted := run.accounted faithful.injective
  have loads : scheme.Loads system directory bypass path
    (scheme.load system (some directory) bypass path) := loads_load
  rw [SteadySince] at steady
  generalize scheme.load system (some directory) bypass path = outcome at *
  cases loads with
  | absent none =>
    rw [FileSystem.read, none]
    rfl
  | failed found read | read found read =>
    rw [FileSystem.read, found]
    exact congrArg registryOf read.symm
  | @served root record found fresh =>
    have proper := proper_of_definitions accounted.proper found
    obtain ⟨moment, loaded, isMoment, read, rfl, isFresh⟩ :=
      accounted.served faithful proper fresh
    have stands := stands_of_definitions found
    obtain ⟨diagnostics, again⟩ := FileSystem.readAt_of_isFresh faithful.injective accounted.proper
      read stands isFresh (steady root moment loaded _ found isMoment read rfl rfl)
    have rereads : system.read scheme.digest path = system.readAt scheme.digest root := by
      rw [FileSystem.read, found]
      rfl
    rw [rereads, again]
    rfl

/-! ### A link that is removed

A definition includes another one by way of a link. After a first load the link is removed, or a file
that nothing includes. -/

/-- Two letters that tell a byte. -/
def letters (byte : UInt8) : List Char :=
  [Char.ofNat ('a'.toNat + byte.toNat / 16), Char.ofNat ('a'.toNat + byte.toNat % 16)]

/-- A scheme whose digests spell the content out. -/
def spelling : CacheScheme where
  digest content := String.ofList ('x' :: content.data.toList.flatMap letters)
  encode := CacheRecord.encode
  decode? := CacheRecord.decode?

theorem toNat_letter {n : Nat} (small : n < 16) :
    (Char.ofNat ('a'.toNat + n)).toNat = 'a'.toNat + n := by
  have table : ∀ k : Fin 16, (Char.ofNat ('a'.toNat + k)).toNat = 'a'.toNat + k := by decide
  exact table ⟨n, small⟩

theorem flatMap_letters_injective {bytes others : List UInt8}
    (same : bytes.flatMap letters = others.flatMap letters) : bytes = others := by
  induction bytes generalizing others with
  | nil =>
    cases others with
    | nil => rfl
    | cons other rest => cases same
  | cons byte bytes inductionHypothesis =>
    cases others with
    | nil => cases same
    | cons other others =>
      have ⟨high, tail⟩ := List.cons.inj same
      have ⟨low, rest⟩ := List.cons.inj tail
      have highNat := congrArg Char.toNat high
      have lowNat := congrArg Char.toNat low
      have small := byte.toNat_lt
      have otherSmall := other.toNat_lt
      rw [toNat_letter (by omega), toNat_letter (by omega)] at highNat lowNat
      have sameByte : byte = other := UInt8.toNat_inj.mp (by omega)
      rw [sameByte, inductionHypothesis rest]

/-- The scheme does what is asked of schemes. -/
theorem faithful_spelling : spelling.Faithful where
  injective content other same := by
    have spelled := List.cons.inj (String.ofList_injective same)
    exact ByteArray.ext (Array.toList_inj.mp (flatMap_letters_injective spelled.2))
  decodes := CacheRecord.decode?_encode

/-- An encoded record has content, as a record is read from it. -/
theorem filled_spelling (record : CacheRecord) : (spelling.encode record).isEmpty = false := by
  have unwritten : CacheRecord.decode? ByteArray.empty = none := by decide +kernel
  refine Bool.eq_false_iff.mpr fun isEmpty => ?_
  have empty : CacheRecord.encode record = ByteArray.empty :=
    ByteArray.size_eq_zero_iff.mp (by simpa [ByteArray.isEmpty, spelling] using isEmpty)
  cases unwritten.symm.trans (empty ▸ CacheRecord.decode?_encode record)

theorem isName_spelling (content : ByteArray) : IsName (spelling.digest content) := by
  have begins : (spelling.digest content).toList.head? = some 'x' := by simp [spelling]
  refine ⟨?_, ?_, ?_, ?_⟩
  · intro same
    simp [same] at begins
  · intro same
    simp [same] at begins
  · intro same
    simp [same] at begins
  · intro slash
    simp only [spelling, String.toList_ofList, List.mem_cons, List.mem_flatMap, letters,
      List.not_mem_nil, or_false] at slash
    rcases slash with isX | ⟨byte, _, isLetter⟩
    · cases isX
    · have small := byte.toNat_lt
      rcases isLetter with same | same <;>
      · have code := congrArg Char.toNat same
        rw [toNat_letter (by omega)] at code
        simp at code
        omega

/-- A definition that includes a link, another one, a cache, and whatever else there is. -/
def site (records others : List (String × Node)) : FileSystem where
  top := ("cache", .directory records) :: ("m.ui", .file "include link".toUTF8) ::
    ("a.ui", .file "menuset menubar separator end end".toUTF8) :: others

/-- What else is at the site at first: the link, and a file that nothing includes. -/
def siteEntries : List (String × Node) := [("link.ui", .link "a.ui"), ("b.ui", .file ⟨#[]⟩)]

/-- What is read from the site as long as the link leads to the other definition. -/
def siteReading : Reading where
  registry := { menubar := ⟨"", [.separator]⟩ }
  sources :=
    [⟨["m.ui"], spelling.digest "include link".toUTF8⟩,
      ⟨["a.ui"], spelling.digest "menuset menubar separator end end".toUTF8⟩]

/-- What a load of the definition gives then. -/
def siteLoaded : Loaded := siteReading.toLoaded []

/-- What a load of the definition gives if the inclusion fails. -/
def siteFailed (cause : AccessError) : Loaded :=
  Reading.toLoaded
    { sources := [⟨["m.ui"], spelling.digest "include link".toUTF8⟩]
      missing := ["/link.ui"]
      diagnostics :=
        [.inclusionFailed (Location.path ["m.ui"]) 1 "link" cause.message] } []

/-- The name of the record of the definition. -/
def siteRecordName : String := "xcpgncohfgj.bin"

/-- The record of the definition. -/
def siteRecord : String × Node := (siteRecordName, .file (spelling.encode (.ofLoaded siteLoaded)))

/-- The site after a first load and the removal of a file or a link. -/
def siteAfter (removed : String) : FileSystem :=
  (spelling.load (site [] siteEntries) (some "/cache") false "/m.ui").1.change (.removeFile removed)

/-- For each root the file system in which its record was made. -/
noncomputable def siteMade : Location → Option FileSystem :=
  spelling.madeAfter "/cache" ["cache"] (site [] siteEntries) false "/m.ui" fun _ => none

section Site

variable (records others : List (String × Node))

theorem leadsTo_site : spelling.LeadsTo "/cache" ["cache"] (site records others) := by
  have isPath : Location.path ["cache"] = "/cache" := by decide
  rw [← isPath]
  refine leadsTo_of_noLinks (by decide) isName_spelling ?_
  intro front target isFront
  rcases List.prefix_concat_iff.mp (show front <+: [] ++ ["cache"] from isFront) with rfl | top
  · exact nofun
  · rw [List.prefix_nil.mp top]
    exact nofun

theorem definitions_site : (site records others).definitions "/m.ui" = .ok ["m.ui"] := by
  have isPath : Location.path ["m.ui"] = "/m.ui" := by decide
  have resolved : (site records others).resolve .use (Location.path ["m.ui"]) = .ok ["m.ui"] :=
    FileSystem.resolve_path (by decide) (by decide) rfl rfl
  rw [isPath] at resolved
  rw [FileSystem.definitions, resolved]

/-- The definition begins with an inclusion and has no more to it. -/
theorem ofText_includer :
    OpenFile.ofText ["m.ui"] "include link" = ⟨["m.ui"], [.inclusion "link" 1], []⟩ := by
  have tokens : Token.ofText "include link" = [⟨"include", 1, .bare⟩, ⟨"link", 1, .bare⟩] := by
    decide +kernel
  rw [OpenFile.ofText, tokens]
  with_unfolding_all rfl

theorem ofText_included :
    OpenFile.ofText ["a.ui"] "menuset menubar separator end end" =
      ⟨["a.ui"], [.contribute ⟨none, [.separator]⟩], []⟩ := by
  have tokens : Token.ofText "menuset menubar separator end end" =
      [⟨"menuset", 1, .bare⟩, ⟨"menubar", 1, .bare⟩, ⟨"separator", 1, .bare⟩, ⟨"end", 1, .bare⟩,
        ⟨"end", 1, .bare⟩] := by
    decide +kernel
  rw [OpenFile.ofText, tokens]
  with_unfolding_all rfl

theorem inclusionPath_site (statements : List Statement) (problems : List Diagnostic) :
    OpenFile.inclusionPath ⟨["m.ui"], statements, problems⟩ "link" = "/link.ui" := by
  rw [OpenFile.inclusionPath_here]
  dsimp only
  decide +kernel

theorem path_link : Location.path ["link.ui"] = "/link.ui" := by decide

/-- The link leads to the other definition. -/
theorem locatedText_site (linked : others.lookup "link.ui" = some (.link "a.ui")) :
    (site records others).locatedText "/link.ui" =
      .ok (["a.ui"], "menuset menubar separator end end") := by
  have leads : (site records others).follow .use "/link.ui" = .ok ["a.ui"] := by
    refine FileSystem.follow_of_walks (FileSystem.standing_nil _) rfl ?_
    refine .idle rfl (.inl rfl) (.linked (by constructor <;> decide) linked (by decide) ?_)
    exact .entered (by constructor <;> decide) rfl rfl (by decide) (.arrived _ _)
  exact FileSystem.locatedText_eq_ok_iff.mpr ⟨leads, FileSystem.textAt_of_file (by decide) rfl⟩

/-- Without the link its path leads nowhere. -/
theorem locatedText_site_unlinked (unlinked : others.lookup "link.ui" = none) :
    (site records others).locatedText "/link.ui" = .error .notFound := by
  have missing : (site records others).node? ["link.ui"] = none := by
    have absent : (site records others).root.entries.lookup "link.ui" = none := unlinked
    rw [FileSystem.node?, Node.find?, absent]
  rw [← path_link]
  exact FileSystem.locatedText_path_of_missing (by decide) (by decide) missing

theorem readAt_site {reading : Reading}
    (read : Reading.finish (site records others) spelling.digest
      (Reading.meet {} spelling.digest ["m.ui"] "include link")
      [⟨["m.ui"], [.inclusion "link" 1], []⟩] = reading) :
    (site records others).readAt spelling.digest ["m.ui"] = .ok (reading.toLoaded []) := by
  have text : (site records others).textAt ["m.ui"] = .ok "include link" :=
    FileSystem.textAt_of_file (by decide) rfl
  have readRoot : Reading.readRoot (site records others) spelling.digest {} ["m.ui"] =
      .ok reading := by
    rw [Reading.readRoot, text, ← read, ← ofText_includer]
    rfl
  have isFile : (site records others).isDirectoryAt ["m.ui"] = false :=
    FileSystem.isDirectoryAt_of_textAt text
  refine FileSystem.readAt_eq_ok_iff.mpr ⟨by simp [isFile], reading, ?_, rfl⟩
  have single : (site records others).rootsAt ["m.ui"] = [["m.ui"]] := rfl
  rw [single, List.foldlM_cons, readRoot]
  rfl

theorem readAt_site_linked (linked : others.lookup "link.ui" = some (.link "a.ui")) :
    (site records others).readAt spelling.digest ["m.ui"] = .ok siteLoaded := by
  refine readAt_site records others ?_
  have unmet : (Reading.meet {} spelling.digest ["m.ui"] "include link").hasRead ["a.ui"] = false :=
    rfl
  rw [Reading.finish_inclusion rfl, inclusionPath_site, locatedText_site records others linked]
  simp only [unmet, Bool.false_eq_true, if_false, ofText_included]
  rw [Reading.finish_contribute rfl, Reading.finish_end rfl, Reading.finish_end rfl, Reading.finish]
  rfl

/-- If the inclusion fails, the definition is all that is read. -/
theorem readAt_site_failed {cause : AccessError}
    (fails : (site records others).locatedText "/link.ui" = .error cause) :
    (site records others).readAt spelling.digest ["m.ui"] = .ok (siteFailed cause) := by
  refine readAt_site records others ?_
  rw [Reading.finish_inclusion rfl, inclusionPath_site, fails]
  simp only []
  rw [Reading.finish_end rfl, Reading.finish]
  rfl

theorem readAt_site_unlinked (unlinked : others.lookup "link.ui" = none) :
    ∃ loaded, (site records others).readAt spelling.digest ["m.ui"] = .ok loaded ∧
      loaded.registry = {} :=
  ⟨_, readAt_site_failed records others (locatedText_site_unlinked records others unlinked), rfl⟩

theorem slot_site : spelling.slot ["cache"] ["m.ui"] = ["cache", siteRecordName] := by
  decide +kernel

theorem recordPath_site : spelling.recordPath "/cache" (Location.path ["m.ui"]) =
    Location.path (["cache"] ++ [siteRecordName]) := by
  have isPath : Location.path ["cache"] = "/cache" := by decide
  rw [← isPath, recordPath_path (by decide) (isName_spelling _), slot_site]
  rfl

theorem reachable_siteRecord : Location.Reachable (["cache"] ++ [siteRecordName]) := by
  decide

theorem refusalOf?_siteRecord :
    FileSystem.refusalOf? (Location.path (["cache"] ++ [siteRecordName])) = none := by
  decide

/-- A record can be kept. -/
theorem writeRecord_site (record : CacheRecord) :
    spelling.writeRecord (site [] others)
        (spelling.recordPath "/cache" (Location.path ["m.ui"])) record =
      ((site [] others).put (["cache"] ++ [siteRecordName]) (.file (spelling.encode record)),
        .ok ()) := by
  have inside : (site [] others).isDirectoryAt ["cache"] := rfl
  have isName : IsName siteRecordName := by decide
  have around := FileSystem.createParents_of_inside (by decide) (by decide) isName inside
  have written := FileSystem.write_of_absent reachable_siteRecord refusalOf?_siteRecord inside rfl
    (spelling.encode record)
  simp only [recordPath_site, writeRecord, around, written]

/-- A load that finds no record reads the definition and leaves one. -/
theorem load_site_of_readAt {loaded : Loaded}
    (read : (site [] others).readAt spelling.digest ["m.ui"] = .ok loaded) :
    spelling.load (site [] others) (some "/cache") false "/m.ui" =
      ((site [] others).put (["cache"] ++ [siteRecordName])
        (.file (spelling.encode (.ofLoaded loaded))), .ok loaded) := by
  have absent : (site [] others).node? (["cache"] ++ [siteRecordName]) = none := rfl
  have unread : spelling.freshRecord? (site [] others)
      (spelling.recordPath "/cache" (Location.path ["m.ui"])) ["m.ui"] = none := by
    refine Option.eq_none_iff_forall_ne_some.mpr fun record fresh => ?_
    obtain ⟨content, stands, _⟩ :=
      file_of_freshRecord (leadsTo_site _ _) (by rw [slot_site]; exact nofun) fresh
    rw [slot_site] at stands
    cases absent.symm.trans stands
  rw [load, definitions_site]
  simp only [Bool.false_eq_true, if_false, unread]
  rw [readAndKeep, read]
  simp only [writeRecord_site]

/-- The first load reads the definition and leaves a record. -/
theorem load_site :
    spelling.load (site [] siteEntries) (some "/cache") false "/m.ui" =
      (site [siteRecord] siteEntries, .ok siteLoaded) :=
  load_site_of_readAt siteEntries (readAt_site_linked _ _ rfl)

theorem decode?_site :
    spelling.decode? (spelling.encode (.ofLoaded siteLoaded)) = some (.ofLoaded siteLoaded) :=
  decode?_ofLoaded faithful_spelling.decodes (readAt_site_linked [] siteEntries rfl)

theorem content_siteRecord : (site [siteRecord] others).content
    (spelling.recordPath "/cache" (Location.path ["m.ui"])) =
      .ok (spelling.encode (.ofLoaded siteLoaded)) := by
  have found : List.lookup siteRecordName [siteRecord] = some siteRecord.2 := List.lookup_cons_self
  rw [recordPath_site]
  refine FileSystem.content_path reachable_siteRecord refusalOf?_siteRecord ?_
  simp [FileSystem.node?, FileSystem.root, Node.find?, site, found, Node.entries]
  rfl

/-- The record is fresh, whatever else is at the site. -/
theorem isFresh_site : (CacheRecord.ofLoaded siteLoaded).isFresh spelling
    (site [siteRecord] others) ((site [siteRecord] others).fragments ["m.ui"]) := by
  have includer : (site [siteRecord] others).content (Location.path ["m.ui"]) =
      .ok "include link".toUTF8 := FileSystem.content_path (by decide) (by decide) rfl
  have included : (site [siteRecord] others).content (Location.path ["a.ui"]) =
      .ok "menuset menubar separator end end".toUTF8 :=
    FileSystem.content_path (by decide) (by decide) rfl
  have fragments : (site [siteRecord] others).fragments ["m.ui"] = [] := rfl
  rw [fragments]
  simp [CacheRecord.isFresh, CacheRecord.ofLoaded, siteLoaded, Reading.toLoaded, siteReading,
    Source.isCurrent, includer, included]

/-- Another load is answered with the record. -/
theorem served_site :
    spelling.load (site [siteRecord] others) (some "/cache") false "/m.ui" =
      (site [siteRecord] others, .ok (CacheRecord.ofLoaded siteLoaded).toLoaded) := by
  have fresh : spelling.freshRecord? (site [siteRecord] others)
      (spelling.recordPath "/cache" (Location.path ["m.ui"])) ["m.ui"] =
        some (.ofLoaded siteLoaded) :=
    freshRecord?_eq_some_iff.mpr
      ⟨_, content_siteRecord others, filled_spelling _, decode?_site, isFresh_site others⟩
  rw [load, definitions_site]
  simp only [Bool.false_eq_true, if_false, fresh]

theorem proper_site : (site [] siteEntries).Proper := by
  have locations : (site [] siteEntries).locations =
      [["cache"], ["m.ui"], ["a.ui"], ["link.ui"], ["b.ui"]] := by
    simp [FileSystem.locations, FileSystem.root, site, siteEntries, Node.locations, Node.locationsIn]
  refine FileSystem.proper_of_locations ?_
  rw [locations]
  decide

theorem run_siteAfter {removed : String} (is : siteAfter removed = site [siteRecord] others) :
    spelling.Run "/cache" ["cache"] (siteAfter removed) siteMade := by
  have first : spelling.Run "/cache" ["cache"] (site [] siteEntries) fun _ => none :=
    .start proper_site nofun (leadsTo_site _ _)
  have loaded := first.load false "/m.ui" (by rw [load_site]; exact leadsTo_site _ _)
  refine loaded.change (.removeFile removed) (spares_change nofun) ?_
  rw [← siteAfter, is]
  exact leadsTo_site _ _

theorem siteAfter_path {name : String} {node : Node}
    (reachable : Location.Reachable ([] ++ [name]))
    (usable : FileSystem.refusalOf? (Location.path ([] ++ [name])) = none)
    (named : FileSystem.endsInSlash (Location.path ([] ++ [name])) = false)
    (present : (site [siteRecord] siteEntries).node? ([] ++ [name]) = some node)
    (leaf : node.isDirectory = false) :
    siteAfter (Location.path ([] ++ [name])) =
      (site [siteRecord] siteEntries).takeAway ([] ++ [name]) := by
  have removed := FileSystem.removeFile_of_present reachable usable named present leaf
  rw [siteAfter, load_site, FileSystem.change, removed]
  rfl

theorem siteAfter_other :
    siteAfter "/b.ui" = site [siteRecord] [("link.ui", .link "a.ui")] := by
  have isPath : "/b.ui" = Location.path ([] ++ ["b.ui"]) := by decide
  rw [isPath, siteAfter_path (by decide) (by decide) (by decide) rfl rfl]
  rfl

theorem siteAfter_link : siteAfter "/link.ui" = site [siteRecord] [("b.ui", .file ⟨#[]⟩)] := by
  have isPath : "/link.ui" = Location.path ([] ++ ["link.ui"]) := by decide
  rw [isPath, siteAfter_path (by decide) (by decide) (by decide) rfl rfl]
  rfl

/-- If the other file is removed, the inclusion leads where it led. -/
theorem steady_siteAfter_other :
    spelling.SteadySince "/cache" siteMade (siteAfter "/b.ui") false "/m.ui" := by
  intro root moment loaded answer found isMade read _ _
  rw [siteAfter_other] at found ⊢
  cases found.symm.trans (definitions_site _ _)
  have isMoment : moment = site [] siteEntries := by
    rw [siteMade, madeAfter] at isMade
    split at isMade
    · exact (Option.some.inj isMade).symm
    · cases isMade
  subst isMoment
  cases (readAt_site_linked _ _ rfl).symm.trans read
  intro source member text contained path included
  rw [siteLoaded, siteReading, Reading.toLoaded] at member
  rcases List.mem_cons.mp member with rfl | member
  · cases contained.symm.trans (FileSystem.textAt_of_file (by decide) rfl)
    rw [ofText_includer] at included
    obtain ⟨name, line, isStatement, rfl⟩ := included
    cases List.mem_singleton.mp isStatement
    rw [inclusionPath_site]
    have leads := locatedText_site [] siteEntries rfl
    constructor
    · intro place text located
      cases leads.symm.trans located
      exact (FileSystem.locatedText_eq_ok_iff.mp (locatedText_site _ _ rfl)).1
    · intro cause lost
      cases leads.symm.trans lost
  · cases List.mem_singleton.mp member
    cases contained.symm.trans (FileSystem.textAt_of_file (by decide) rfl)
    rw [ofText_included] at included
    obtain ⟨name, line, isStatement, rfl⟩ := included
    cases List.mem_singleton.mp isStatement

end Site

/-- A load after the removal of the other file is answered from the cache, and as by reading. -/
theorem answers_as_reading_after_removal :
    spelling.Faithful ∧ spelling.Run "/cache" ["cache"] (siteAfter "/b.ui") siteMade ∧
      spelling.SteadySince "/cache" siteMade (siteAfter "/b.ui") false "/m.ui" ∧
      registryOf (spelling.load (siteAfter "/b.ui") (some "/cache") false "/m.ui").2 =
        registryOf ((siteAfter "/b.ui").read spelling.digest "/m.ui") ∧
      (spelling.load (siteAfter "/b.ui") (some "/cache") false "/m.ui").2.toOption.any
        Loaded.fromCache := by
  have run := run_siteAfter _ siteAfter_other
  have steady := steady_siteAfter_other
  refine ⟨faithful_spelling, run, steady,
    loads_answer_as_reading faithful_spelling run false "/m.ui" steady, ?_⟩
  rw [siteAfter_other, served_site]
  rfl

/-- Without the link the definition would include nothing, but a load is answered as before. -/
theorem removed_link_goes_unnoticed :
    spelling.Faithful ∧ spelling.Run "/cache" ["cache"] (siteAfter "/link.ui") siteMade ∧
      registryOf (spelling.load (siteAfter "/link.ui") (some "/cache") false "/m.ui").2 ≠
        registryOf ((siteAfter "/link.ui").read spelling.digest "/m.ui") := by
  refine ⟨faithful_spelling, run_siteAfter _ siteAfter_link, ?_⟩
  obtain ⟨loaded, read, bare⟩ := readAt_site_unlinked [siteRecord] [("b.ui", .file ⟨#[]⟩)] rfl
  have rereads : (site [siteRecord] [("b.ui", .file ⟨#[]⟩)]).read spelling.digest "/m.ui" =
      .ok loaded := by
    rw [FileSystem.read, definitions_site]
    exact read
  rw [siteAfter_link, served_site, rereads]
  intro same
  have menus : siteReading.registry = loaded.registry := Except.ok.inj same
  rw [bare] at menus
  cases menus

end CacheScheme

end Menus
