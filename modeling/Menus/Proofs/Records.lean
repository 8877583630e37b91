import Menus.Proofs.Rereading
import Menus.Proofs.Surroundings

/-!
# Where records are kept

The record of the definitions at a location is kept in a cache, under a name that tells them apart from
all others, as every location has a text for its path. The path of the record leads there, if anywhere;
a cache that is given by its own path, with no link on the way, is one for which that holds. Keeping a
record puts a file in its place and creates directories, and does nothing else.
-/

namespace Menus

/-- A name is still one with the extension of records. -/
theorem IsName.withExtension {name : String} (isName : IsName name) :
    IsName (name ++ "." ++ String.ofList CacheScheme.extension) := by
  have last : (name ++ "." ++ String.ofList CacheScheme.extension).toList.getLast? = some 'n' := by
    simp [CacheScheme.extension]
  refine ⟨?_, ?_, ?_, ?_⟩
  · intro same
    simp [same] at last
  · intro same
    simp [same] at last
  · intro same
    simp [same] at last
  · simpa [CacheScheme.extension] using isName.noSlash

/-- The path of an entry is that of the directory, a slash and the name. -/
theorem Location.path_concat (location : Location) (name : String) :
    Location.path (location ++ [name]) =
      (if location = [] then "/" else location.path ++ "/") ++ name := by
  have behind (first : String) (rest : List String) :
      "/".intercalate (first :: rest ++ [name]) = "/".intercalate (first :: rest) ++ "/" ++ name := by
    induction rest generalizing first with
    | nil => simp [String.intercalate_cons_cons]
    | cons second rest inductionHypothesis =>
      have further := inductionHypothesis second
      rw [List.cons_append] at further
      rw [List.cons_append, List.cons_append, String.intercalate_cons_cons, further,
        String.intercalate_cons_cons]
      simp only [String.append_assoc]
  cases location with
  | nil => simp [Location.path]
  | cons first rest =>
    rw [if_neg (List.cons_ne_nil first rest), Location.path, behind, Location.path]
    simp only [String.append_assoc]

/-- A name that is put behind the path of a directory makes up the path of an entry. -/
theorem Location.inDirectory_path {location : Location} {name : String} (proper : location.Proper)
    (isName : IsName name) :
    Path.inDirectory location.path.toList name.toList =
      (Location.path (location ++ [name])).toList := by
  have relative : name.toList.head? ≠ some '/' :=
    fun slash => isName.noSlash (List.mem_of_head? slash)
  rw [Location.path_concat, Path.inDirectory]
  split
  · rename_i slash
    exact absurd slash relative
  · obtain rfl | ⟨front, last, rfl⟩ := List.eq_nil_or_concat location
    · simp [Location.path]
    · rw [List.concat_eq_append] at *
      have isLast := proper last (List.mem_append_right _ (List.mem_singleton_self last))
      have ends : (Location.path (front ++ [last])).toList.getLast? = last.toList.getLast? := by
        have filled : last.toList ≠ [] :=
          fun empty => isLast.nonempty (String.toList_eq_nil_iff.mp empty)
        rw [Location.path_concat, String.toList_append, List.getLast?_append_of_ne_nil _ filled]
      rw [ends, if_neg (List.append_ne_nil_of_right_ne_nil _ (List.cons_ne_nil _ _))]
      split
      · rename_i empty
        exact absurd (String.toList_eq_nil_iff.mp (List.getLast?_eq_none_iff.mp empty)) isLast.nonempty
      · rename_i slash
        exact absurd (List.mem_of_getLast? slash) isLast.noSlash
      · simp

/-- No directories are missing around an entry of a directory that is there already. -/
theorem FileSystem.createParents_of_inside {system : FileSystem} {location : Location} {name : String}
    (reachable : location.Reachable) (usable : refusalOf? location.path = none)
    (isName : IsName name) (inside : system.isDirectoryAt location) :
    system.createParents (Location.path (location ++ [name])) = (system, .ok ()) := by
  have created := createParents_of_isDirectory isName.noSlash isName.stepOf?_eq
    (isDirectory_path reachable usable inside)
  rwa [Location.inDirectory_path reachable.proper isName, String.ofList_toList] at created

namespace CacheScheme

/-- What is asked of a scheme: contents have digests of their own, and a record is read back as it was
written, with its registry as templates. -/
structure Faithful (scheme : CacheScheme) : Prop where
  injective : Function.Injective scheme.digest
  decodes : ∀ record, scheme.decode? (scheme.encode record) =
    some { record with registry := record.registry.asTemplates }

/-- The record of the definitions at a location has a place of its own in the cache. -/
def slot (scheme : CacheScheme) (cache root : Location) : Location :=
  cache ++ [scheme.digest (Location.path root).toUTF8 ++ "." ++ String.ofList extension]

/-- The path of a record leads, if anywhere, to its place in the cache. -/
def LeadsTo (scheme : CacheScheme) (directory : String) (cache : Location)
    (system : FileSystem) : Prop :=
  ∀ root place, system.resolve .entry (scheme.recordPath directory (Location.path root)) = .ok place →
    place = scheme.slot cache root

/-- No record is read from the node. -/
def Inert (scheme : CacheScheme) : Node → Prop
  | .file content => content.isEmpty ∨ scheme.decode? content = none
  | .directory _ => True
  | .link _ => False

/-- A change brings no records, and no links, to the places of records. It may damage or remove
them. -/
def Spares (scheme : CacheScheme) (cache : Location) (before after : FileSystem) : Prop :=
  ∀ root node, after.node? (scheme.slot cache root) = some node →
    scheme.Inert node ∨ before.node? (scheme.slot cache root) = some node

variable {scheme : CacheScheme} {directory : String} {cache : Location} {system : FileSystem}
  {bypass : Bool} {path : String}

/-- A change spares a cache if it fills no place of a record. -/
theorem spares_change {change : Change}
    (outside : ∀ root, system.fills? change ≠ some (scheme.slot cache root)) :
    scheme.Spares cache system (system.change change) := by
  intro root node stands
  rcases FileSystem.new_of_change stands with isDirectory | stood | fills
  · obtain ⟨entries, rfl⟩ := Node.eq_directory isDirectory
    exact .inl trivial
  · exact .inr stood
  · exact absurd fills (outside root)

/-- The path of a record is a name of its own, put behind the path of the cache. -/
theorem recordPath_eq {root : String} (filled : directory.toList ≠ [])
    (digested : IsName (scheme.digest root.toUTF8)) :
    scheme.recordPath directory root = String.ofList (Path.inDirectory directory.toList
      (scheme.digest root.toUTF8 ++ "." ++ String.ofList extension).toList) := by
  obtain ⟨front, placed, _⟩ := Path.inDirectory_eq filled digested.noSlash
  have divided : Path.pieces (Path.inDirectory directory.toList (scheme.digest root.toUTF8).toList) =
      Path.pieces front ++ [(scheme.digest root.toUTF8).toList] := by
    rw [placed, Path.pieces_slash, Path.pieces_of_noSlash digested.noSlash]
  have named : (scheme.digest root.toUTF8).toList ≠ [] :=
    fun empty => digested.nonempty (String.toList_eq_nil_iff.mp empty)
  have whole : (scheme.digest root.toUTF8 ++ "." ++ String.ofList extension).toList =
      (scheme.digest root.toUTF8).toList ++ '.' :: extension := by
    simp [List.append_assoc]
  rw [whole, Path.inDirectory_append named, recordPath]
  exact congrArg String.ofList (Path.addExtension_of_pieces divided digested.stepOf?_eq)

/-- In a cache that is there already no directories are created for a record. -/
theorem createParents_recordPath {root : String} (digested : IsName (scheme.digest root.toUTF8))
    (inside : system.isDirectory directory) :
    system.createParents (scheme.recordPath directory root) = (system, .ok ()) := by
  rw [recordPath_eq (FileSystem.toList_ne_nil_of_isDirectory inside) digested]
  exact FileSystem.createParents_of_isDirectory digested.withExtension.noSlash
    digested.withExtension.stepOf?_eq inside

/-- In a cache that is given by its own path, the path of a record is that of its place. -/
theorem recordPath_path {root : Location} (proper : cache.Proper)
    (digested : IsName (scheme.digest (Location.path root).toUTF8)) :
    scheme.recordPath (Location.path cache) (Location.path root) =
      Location.path (scheme.slot cache root) := by
  have filled : (Location.path cache).toList ≠ [] := by
    rw [Location.toList_path]
    exact List.cons_ne_nil _ _
  rw [recordPath_eq filled digested, Location.inDirectory_path proper digested.withExtension,
    String.ofList_toList]
  rfl

/-- A cache that is given by its own path keeps its records as long as no link stands on the way. -/
theorem leadsTo_of_noLinks (proper : cache.Proper)
    (digested : ∀ content, IsName (scheme.digest content))
    (noLinks : ∀ front target, front <+: cache → system.node? front ≠ some (.link target)) :
    scheme.LeadsTo (Location.path cache) cache system := by
  intro root place resolved
  rw [recordPath_path proper (digested _)] at resolved
  have properSlot : Location.Proper (scheme.slot cache root) :=
    List.forall_mem_append.mpr
      ⟨proper, List.forall_mem_singleton.mpr (digested (Location.path root).toUTF8).withExtension⟩
  refine FileSystem.place_of_path properSlot ?_ (FileSystem.follow_of_resolve resolved)
  intro front target isFront notWhole
  rcases List.prefix_concat_iff.mp isFront with whole | inside
  · exact absurd whole (notWhole rfl)
  · exact noLinks front target inside

/-- What is read from a path that leads to a record is the content of the record's place. -/
theorem standsIn_slot {root : Location} (leads : scheme.LeadsTo directory cache system)
    (noLink : ∀ target, system.node? (scheme.slot cache root) ≠ some (.link target)) {aim : Aim}
    {place : Location}
    (resolved : system.resolve aim (scheme.recordPath directory (Location.path root)) = .ok place) :
    place = scheme.slot cache root := by
  obtain ⟨entry, toEntry, same⟩ := FileSystem.entry_of_resolve resolved
  have isSlot := leads root entry toEntry
  subst isSlot
  rcases same with same | ⟨target, isLink⟩
  · exact same.symm
  · exact absurd isLink (noLink target)

/-- Where paths of records lead once a file system has grown, they led before. -/
theorem LeadsTo.of_grows {before after : FileSystem} (leads : scheme.LeadsTo directory cache after)
    (grows : before.Grows after) (same : after.workingDirectory = before.workingDirectory) :
    scheme.LeadsTo directory cache before :=
  fun root place resolved => leads root place (FileSystem.resolve_of_grows grows same resolved)

/-- A file that is written to the path of a record is put in the place of the record. -/
theorem put_slot_of_write {root : Location} {content : ByteArray} {grown : FileSystem}
    (leads : scheme.LeadsTo directory cache grown)
    (noLink : ∀ target, system.node? (scheme.slot cache root) ≠ some (.link target))
    (written : system.write (scheme.recordPath directory (Location.path root)) content = .ok grown) :
    grown = system.put (scheme.slot cache root) (.file content) := by
  have ⟨grows, same⟩ := FileSystem.grows_of_write written
  obtain ⟨place, resolved, _, rfl⟩ := FileSystem.put_of_write written
  rw [standsIn_slot (leads.of_grows grows same) noLink resolved]

/-- Keeping a record puts a file in its place, and creates directories. -/
theorem written_of_writeRecord {root location : Location} {record : CacheRecord} {node : Node}
    (leads : scheme.LeadsTo directory cache
      (scheme.writeRecord system (scheme.recordPath directory (Location.path root)) record).1)
    (noLink : ∀ target, system.node? (scheme.slot cache root) ≠ some (.link target))
    (stands : (scheme.writeRecord system (scheme.recordPath directory (Location.path root))
      record).1.node? location = some node) :
    node.isDirectory ∨ system.node? location = some node ∨
      location = scheme.slot cache root ∧ node = .file (scheme.encode record) := by
  have adds := FileSystem.addsDirectories_createParents system
    (scheme.recordPath directory (Location.path root))
  rw [writeRecord] at leads stands
  split at stands
  · rename_i middle cause created
    rw [created] at adds
    exact (adds location node stands).imp_right .inl
  · rename_i middle created
    rw [created] at adds leads
    dsimp only at adds leads stands
    split at stands
    · rename_i written write
      rw [write] at leads
      rw [put_slot_of_write leads (fun target => adds.noLink (noLink target)) write] at stands
      rcases FileSystem.new_of_put rfl stands with isDirectory | stood | isRecord
      · exact .inl isDirectory
      · exact (adds location node stood).imp_right .inl
      · exact .inr (.inr isRecord)
    · exact (adds location node stands).imp_right .inl

/-- Places of records tell definitions apart, as their paths are texts and no two have the same one. -/
theorem slot_injective (injective : Function.Injective scheme.digest) {root other : Location}
    (proper : root.Proper) (otherProper : other.Proper)
    (same : scheme.slot cache root = scheme.slot cache other) : root = other := by
  have names := (List.cons.inj (List.append_cancel_left same)).1
  have digests := (String.append_left_inj _).mp ((String.append_left_inj _).mp names)
  have texts : some (Location.path root) = some (Location.path other) := by
    rw [← FileSystem.fromUTF8?_toUTF8, injective digests, FileSystem.fromUTF8?_toUTF8]
  exact Location.path_injective proper otherProper (Option.some.inj texts)

/-- A record is found fresh if a file holds it and it is. -/
theorem freshRecord?_eq_some_iff {root : Location} {record : CacheRecord} :
    scheme.freshRecord? system path root = some record ↔
      ∃ content, system.content path = .ok content ∧ content.isEmpty = false ∧
        scheme.decode? content = some record ∧
        record.isFresh scheme system (system.fragments root) := by
  rw [freshRecord?, readRecord]
  cases system.content path with
  | error cause => simp
  | ok content =>
    by_cases empty : content.isEmpty
    · simp [empty]
    · cases decoded : scheme.decode? content with
      | none => simp [empty, decoded]
      | some found =>
        simp only [empty, decoded, Bool.false_eq_true, if_false, Option.ite_none_right_eq_some,
          Option.some.injEq, Except.ok.injEq, exists_eq_left', true_and]
        constructor
        · rintro ⟨isFresh, rfl⟩
          exact ⟨rfl, isFresh⟩
        · rintro ⟨rfl, isFresh⟩
          exact ⟨isFresh, rfl⟩

/-- A record that is found fresh was read from the file in its place. -/
theorem file_of_freshRecord {root : Location} {record : CacheRecord}
    (leads : scheme.LeadsTo directory cache system)
    (noLink : ∀ target, system.node? (scheme.slot cache root) ≠ some (.link target))
    (fresh : scheme.freshRecord? system (scheme.recordPath directory (Location.path root)) root =
      some record) :
    ∃ content, system.node? (scheme.slot cache root) = some (.file content) ∧
      content.isEmpty = false ∧ scheme.decode? content = some record ∧
      record.isFresh scheme system (system.fragments root) := by
  obtain ⟨content, read, found⟩ := freshRecord?_eq_some_iff.mp fresh
  obtain ⟨place, resolved, contained⟩ := FileSystem.contentAt_of_content read
  rw [standsIn_slot leads noLink resolved] at contained
  exact ⟨content, FileSystem.file_of_contentAt contained, found⟩

/-- The ways a load can go. -/
inductive Loads (scheme : CacheScheme) (system : FileSystem) (directory : String) (bypass : Bool)
    (path : String) : FileSystem × Except LoadError Loaded → Prop
  | absent {problem : LoadError} (none : system.definitions path = .error problem) :
      Loads scheme system directory bypass path (system, .error problem)
  | served {root : Location} {record : CacheRecord} (found : system.definitions path = .ok root)
      (fresh : scheme.freshRecord? system (scheme.recordPath directory (Location.path root)) root =
        some record) : Loads scheme system directory bypass path (system, .ok record.toLoaded)
  | failed {root : Location} {problem : LoadError} (found : system.definitions path = .ok root)
      (read : system.readAt scheme.digest root = .error problem) :
      Loads scheme system directory bypass path (system, .error problem)
  | read {root : Location} {loaded : Loaded} (found : system.definitions path = .ok root)
      (read : system.readAt scheme.digest root = .ok loaded) :
      Loads scheme system directory bypass path
        ((scheme.writeRecord system (scheme.recordPath directory (Location.path root))
          (.ofLoaded loaded)).1, .ok loaded)

/-- A load goes one of these ways. -/
theorem loads_load : scheme.Loads system directory bypass path
    (scheme.load system (some directory) bypass path) := by
  rw [load]
  split
  · rename_i problem none
    exact .absent none
  · rename_i root found
    dsimp only
    split
    · rename_i record served
      cases bypass with
      | true => cases served
      | false => exact .served found served
    · rw [readAndKeep]
      split
      · rename_i problem read
        exact .failed found read
      · rename_i loaded read
        exact .read found read

/-- Definitions are found at a proper location. -/
theorem proper_of_definitions (proper : system.Proper) {root : Location}
    (found : system.definitions path = .ok root) : root.Proper := by
  rw [FileSystem.definitions] at found
  split at found
  · rename_i place resolved
    cases found
    exact FileSystem.proper_of_follow proper (FileSystem.follow_of_resolve resolved)
  · cases found

/-- Definitions that are found stand there, and are no link. -/
theorem stands_of_definitions {root : Location} (found : system.definitions path = .ok root) :
    ∃ node, system.node? root = some node ∧ node.isLink = false := by
  rw [FileSystem.definitions] at found
  split at found
  · rename_i place resolved
    cases found
    exact FileSystem.stands_of_follow (FileSystem.follow_of_resolve resolved)
  · cases found

/-- Keeping a record keeps a file system proper. -/
theorem proper_writeRecord (proper : system.Proper) {record : CacheRecord} :
    (scheme.writeRecord system path record).1.Proper := by
  have created := proper.createParents path
  rw [writeRecord]
  split
  · rename_i middle cause creates
    rwa [creates] at created
  · rename_i middle creates
    rw [creates] at created
    split
    · rename_i written writes
      exact created.write writes
    · exact created

/-- A load keeps a file system proper. -/
theorem proper_load (proper : system.Proper) :
    (scheme.load system (some directory) bypass path).1.Proper := by
  have loads : scheme.Loads system directory bypass path
    (scheme.load system (some directory) bypass path) := loads_load
  generalize scheme.load system (some directory) bypass path = outcome at *
  cases loads with
  | absent | served | failed => exact proper
  | read found read =>
    dsimp only
    exact proper_writeRecord proper

end CacheScheme

end Menus
