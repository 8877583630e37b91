import Menus.Proofs.Obtained
import Menus.Proofs.Placing

/-!
# A load that is made once more

A load that reads leaves a record, and the record is there to serve the next load. It is kept in the
cache, outside of what was read, so it changes nothing about the definitions: they are found at the same
location, with the same fragments, and every file that was read says what it said. What is left is the
list of the includes that failed. A record is taken as stale when one of them leads to something, and
that can be so from the beginning: an include that leads to a directory, or to a file that is not text,
fails although something is there.

So the next load is served exactly if the includes that failed lead to nothing. Otherwise the record
never serves, and every load reads again.
-/

namespace Menus

/-- Everything stands under names that a file system can have. -/
def FileSystem.Nameable (system : FileSystem) : Prop :=
  ∀ location node, system.node? location = some node → location.Reachable

namespace CacheScheme

/-- The record of what was loaded could be written, to a place that is outside of the definitions, holds
no file that was read, and is not where an include leads that failed. -/
structure KeepsApart (scheme : CacheScheme) (system : FileSystem) (directory : String)
    (root place : Location) (loaded : Loaded) : Prop where
  written : (scheme.writeRecord system (scheme.recordPath directory (Location.path root))
    (.ofLoaded loaded)).2 = .ok ()
  leads : system.resolve .fill (scheme.recordPath directory (Location.path root)) = .ok place
  outside : ¬root <+: place
  sources : ∀ source ∈ loaded.sources, source.location ≠ place
  missing : ∀ path ∈ loaded.missing, system.resolve .fill path ≠ .ok place

variable {scheme : CacheScheme} {system : FileSystem} {directory path : String}
  {root place : Location} {loaded : Loaded} {content : ByteArray}

/-- A record that is written to a cache that is there already is put in its place, where nothing or a
file was. -/
theorem KeepsApart.put (apart : scheme.KeepsApart system directory root place loaded)
    (digested : ∀ content, IsName (scheme.digest content)) (existing : system.isDirectory directory) :
    (∀ former, system.node? place = some former → former.isFile) ∧
      (scheme.writeRecord system (scheme.recordPath directory (Location.path root))
        (.ofLoaded loaded)).1 = system.put place (.file (scheme.encode (.ofLoaded loaded))) := by
  have written := apart.written
  rw [writeRecord, createParents_recordPath (digested _) existing] at written ⊢
  dsimp only at written ⊢
  split at written
  · rename_i grown writes
    obtain ⟨there, leads, free, rfl⟩ := FileSystem.put_of_write writes
    cases apart.leads.symm.trans leads
    exact ⟨FileSystem.isFile_of_fill leads free, rfl⟩
  · cases written

/-- Every source of what was read is a text in the file system, under its digest. -/
theorem backed_of_readAt (read : system.readAt scheme.digest root = .ok loaded) :
    ∀ source ∈ loaded.sources, ∃ text, system.textAt source.location = .ok text ∧
      source.digest = scheme.digest text.toUTF8 := by
  obtain ⟨_, reading, all, rfl⟩ := FileSystem.readAt_eq_ok_iff.mp read
  exact Reading.Backed.foldlM (fun _ member => absurd member List.not_mem_nil) all

section Put

variable (room : ∀ former, system.node? place = some former → former.isFile)

include room

/-- A source is current as long as its file says what it said. -/
theorem isCurrent_put (nameable : system.Nameable) {source : Source} {text : String}
    (said : system.textAt source.location = .ok text)
    (digested : source.digest = scheme.digest text.toUTF8) (elsewhere : source.location ≠ place) :
    source.isCurrent scheme (system.put place (.file content)) := by
  obtain ⟨usable, stands⟩ := FileSystem.textAt_eq_ok_iff.mp said
  have still : (system.put place (.file content)).node? source.location =
      some (.file text.toUTF8) := FileSystem.node?_put_of_file room stands elsewhere
  have read := FileSystem.content_path (nameable _ _ stands) usable still
  rw [Source.isCurrent, read, digested]
  exact beq_self_eq_true _

/-- Definitions have the fragments they had. -/
theorem fragments_put (stands : (system.node? root).isSome) (outside : ¬root <+: place) :
    (system.put place (.file content)).fragments root = system.fragments root := by
  have same : (system.put place (.file content)).node? root = system.node? root :=
    FileSystem.node?_put_of_apart room stands outside
  rw [FileSystem.fragments, FileSystem.fragments, FileSystem.isDirectoryAt,
    FileSystem.isDirectoryAt, FileSystem.filesBelow, FileSystem.filesBelow, same]

/-- A record that is kept apart is fresh if the includes that failed lead to nothing. -/
theorem isFresh_put (nameable : system.Nameable) (read : system.readAt scheme.digest root = .ok loaded)
    (stands : (system.node? root).isSome)
    (apart : scheme.KeepsApart system directory root place loaded) :
    (CacheRecord.ofLoaded loaded).isFresh scheme (system.put place (.file content))
        ((system.put place (.file content)).fragments root) =
      !loaded.missing.any system.isPresent := by
  have missing : loaded.missing.any (system.put place (.file content)).isPresent =
      loaded.missing.any system.isPresent := by
    rw [Bool.eq_iff_iff, List.any_eq_true, List.any_eq_true]
    refine exists_congr fun path => and_congr_right fun member => ?_
    rw [FileSystem.isPresent_put room (apart.missing path member)]
  have current : loaded.sources.all
      (Source.isCurrent scheme (system.put place (.file content))) = true := by
    rw [List.all_eq_true]
    intro source member
    obtain ⟨text, said, digested⟩ := backed_of_readAt read source member
    exact isCurrent_put room nameable said digested (apart.sources source member)
  have fragments : loaded.fragments = system.fragments root := by
    obtain ⟨_, reading, _, rfl⟩ := FileSystem.readAt_eq_ok_iff.mp read
    rfl
  rw [fragments_put room stands apart.outside, CacheRecord.isFresh]
  simp only [CacheRecord.ofLoaded, fragments, missing, current, beq_self_eq_true, Bool.and_true,
    Bool.true_and]

end Put

/-- The record that a load leaves is found when the includes that failed lead to nothing, and at no
time if one of them leads to something. -/
theorem freshRecord?_put (decodes : scheme.Decodes)
    (filled : ∀ record, (scheme.encode record).isEmpty = false) (nameable : system.Nameable)
    (room : ∀ former, system.node? place = some former → former.isFile)
    (read : system.readAt scheme.digest root = .ok loaded) (stands : (system.node? root).isSome)
    (apart : scheme.KeepsApart system directory root place loaded) :
    scheme.freshRecord? (system.put place (.file (scheme.encode (.ofLoaded loaded))))
        (scheme.recordPath directory (Location.path root)) root =
      if loaded.missing.any system.isPresent then none else some (.ofLoaded loaded) := by
  have contained : (system.put place (.file (scheme.encode (.ofLoaded loaded)))).content
      (scheme.recordPath directory (Location.path root)) =
        .ok (scheme.encode (.ofLoaded loaded)) := FileSystem.content_put room apart.leads
  rw [freshRecord?, readRecord, contained]
  simp only [filled, decode?_ofLoaded decodes read, Bool.false_eq_true, if_false,
    isFresh_put room nameable read stands apart]
  cases loaded.missing.any system.isPresent <;> rfl

/-- No include that failed when a fresh record was made leads to anything. -/
theorem absent_of_freshRecord? {file : String} {record : CacheRecord}
    (fresh : scheme.freshRecord? system file root = some record) :
    ∀ failed ∈ record.missing, system.isPresent failed = false := by
  obtain ⟨_, _, _, _, isFresh⟩ := freshRecord?_eq_some_iff.mp fresh
  simp only [CacheRecord.isFresh, Bool.and_eq_true, Bool.not_eq_true', List.any_eq_false] at isFresh
  exact fun failed member => Bool.eq_false_iff.mpr (isFresh.1.2 failed member)

/-- Loading once more answers from the record if that is found, and reads again otherwise. -/
theorem load_of_freshRecord? (found : system.definitions path = .ok root) :
    scheme.load system (some directory) false path =
      match scheme.freshRecord? system (scheme.recordPath directory (Location.path root)) root with
      | some record => (system, .ok record.toLoaded)
      | none => scheme.readAndKeep system (scheme.recordPath directory (Location.path root)) root := by
  cases fresh : scheme.freshRecord? system (scheme.recordPath directory (Location.path root)) root with
  | none => simp [load, found, fresh]
  | some record => simp [load, found, fresh]

/-- What is read is not served. -/
theorem fromCache_of_readAndKeep {file : String}
    (answer : (scheme.readAndKeep system file root).2 = .ok loaded) : loaded.fromCache = false := by
  rw [readAndKeep] at answer
  split at answer
  · cases answer
  · rename_i read
    cases answer
    exact fromCache_of_readAt read

/-- A load of definitions, through a cache that is there already, leaves a record outside of what was
read. The same load, made once more, is served from the cache, with the registry, the sources, the
fragments and the failed includes of the first load, if and only if every include that failed leads to
nothing. A first load that is served itself is made once more with the same answer. -/
theorem repeated_loads_are_served (decodes : scheme.Decodes)
    (filled : ∀ record, (scheme.encode record).isEmpty = false)
    (digested : ∀ content, IsName (scheme.digest content)) (nameable : system.Nameable)
    (existing : system.isDirectory directory) {after : FileSystem}
    (first : scheme.load system (some directory) false path = (after, .ok loaded))
    (kept : loaded.fromCache = false → ∃ root place, system.definitions path = .ok root ∧
      scheme.KeepsApart system directory root place loaded) :
    scheme.load after (some directory) false path =
        (after, .ok { loaded with diagnostics := [], fromCache := true }) ↔
      ∀ failed ∈ loaded.missing, system.isPresent failed = false := by
  have loads : scheme.Loads system directory false path
    (scheme.load system (some directory) false path) := loads_load
  generalize outcome : scheme.load system (some directory) false path = answer at loads
  rw [first] at outcome
  cases loads with
  | absent | failed => cases congrArg Prod.snd outcome
  | @served root record found fresh =>
    obtain ⟨left, answered⟩ := Prod.mk.inj outcome
    cases answered
    rw [left] at first ⊢
    exact ⟨fun _ => absent_of_freshRecord? fresh, fun _ => first⟩
  | @read root _ found read =>
    obtain ⟨left, answered⟩ := Prod.mk.inj outcome
    cases answered
    obtain ⟨other, place, foundThere, apart⟩ := kept (fromCache_of_readAt read)
    cases found.symm.trans foundThere
    obtain ⟨room, put⟩ := apart.put digested existing
    obtain ⟨node, stands, _⟩ := stands_of_definitions found
    have again : (system.put place (.file (scheme.encode (.ofLoaded loaded)))).definitions path =
        .ok root := FileSystem.definitions_put room found
    rw [left, put, load_of_freshRecord? again,
      freshRecord?_put decodes filled nameable room read (stands ▸ rfl) apart]
    have leadsNowhere : (∀ failed ∈ loaded.missing, system.isPresent failed = false) ↔
        loaded.missing.any system.isPresent = false := by
      simp [List.any_eq_false]
    rw [leadsNowhere]
    cases loaded.missing.any system.isPresent with
    | false =>
      rw [if_neg Bool.false_ne_true]
      exact ⟨fun _ => rfl, fun _ => rfl⟩
    | true =>
      rw [if_pos rfl]
      refine ⟨fun served => ?_, fun absurdity => by cases absurdity⟩
      cases fromCache_of_readAndKeep (congrArg Prod.snd served)

/-! ### An include that fails

A definition includes `link`, which leads to nothing or to a directory. A first load gives no more than
the definition itself, and leaves a record. -/

section Site

variable {others : List (String × Node)} {cause : AccessError}

/-- The record of the definition is kept apart if the path of the include leads to its own place. -/
theorem keepsApart_site (leads : (site [] others).resolve .fill "/link.ui" = .ok ["link.ui"]) :
    spelling.KeepsApart (site [] others) "/cache" ["m.ui"] ["cache", siteRecordName]
      (siteFailed cause) where
  written := by rw [writeRecord_site]
  leads := by
    rw [recordPath_site]
    exact FileSystem.resolve_of_follow refusalOf?_siteRecord
      (FileSystem.follow_path_of_absent reachable_siteRecord rfl rfl)
  outside := by decide
  sources source member := by
    rw [List.mem_singleton.mp member]
    decide
  missing path member := by
    rw [List.mem_singleton.mp member, leads]
    exact nofun

theorem isDirectory_site : (site [] others).isDirectory "/cache" := by
  have isPath : Location.path ["cache"] = "/cache" := by decide
  have resolved : (site [] others).resolve .use (Location.path ["cache"]) = .ok ["cache"] :=
    FileSystem.resolve_path (by decide) (by decide) rfl rfl
  rw [← isPath, FileSystem.isDirectory, resolved]
  rfl

theorem nameable_site (reachable : ∀ location ∈ Node.locationsIn others, Location.Reachable location) :
    (site [] others).Nameable := by
  have locations : (site [] others).locations =
      ["cache"] :: ["m.ui"] :: ["a.ui"] :: Node.locationsIn others := by
    simp [FileSystem.locations, FileSystem.root, site, Node.locations, Node.locationsIn]
  intro location node stands
  refine FileSystem.holds_of_locations (by decide) ?_ stands
  rw [locations]
  simp only [List.forall_mem_cons]
  exact ⟨by decide, by decide, by decide, reachable⟩

/-- Without a file for it the include leads to its own place. -/
theorem resolve_site_unlinked : (site [] []).resolve .fill "/link.ui" = .ok ["link.ui"] := by
  rw [← path_link, ← List.nil_append ["link.ui"]]
  exact FileSystem.resolve_of_follow (by decide)
    (FileSystem.follow_path_of_absent (by decide) rfl rfl)

theorem isPresent_site_unlinked : (site [] []).isPresent "/link.ui" = false := by
  have resolved : (site [] []).resolve .use (Location.path ["link.ui"]) = .error .notFound := by
    rw [FileSystem.resolve, show FileSystem.refusalOf? (Location.path ["link.ui"]) = none by decide]
    exact FileSystem.follow_path_of_missing (by decide) rfl
  rw [← path_link, FileSystem.isPresent, resolved]

/-- The record of what was read, as an entry of the cache. -/
def siteRecordOf (loaded : Loaded) : String × Node :=
  (siteRecordName, .file (spelling.encode (.ofLoaded loaded)))

/-- What is read again when there is a record is answered as before. -/
theorem load_site_again {loaded : Loaded}
    (read : (site [siteRecordOf loaded] others).readAt spelling.digest ["m.ui"] = .ok loaded)
    (unserved : spelling.freshRecord? (site [siteRecordOf loaded] others)
      (spelling.recordPath "/cache" (Location.path ["m.ui"])) ["m.ui"] = none) :
    (spelling.load (site [siteRecordOf loaded] others) (some "/cache") false "/m.ui").2 =
      .ok loaded := by
  rw [load_of_freshRecord? (definitions_site _ _), unserved]
  simp only [readAndKeep, read]

/-- The include leads to an empty directory. -/
def siteDirectory : List (String × Node) := [("link.ui", .directory [])]

theorem resolve_siteDirectory {aim : Aim} (records : List (String × Node)) :
    (site records siteDirectory).resolve aim "/link.ui" = .ok ["link.ui"] := by
  rw [← path_link]
  exact FileSystem.resolve_path (by decide) (by decide) rfl rfl

theorem locatedText_siteDirectory (records : List (String × Node)) :
    (site records siteDirectory).locatedText "/link.ui" = .error .isDirectory := by
  have located : (site records siteDirectory).locate .use (Location.path ["link.ui"]) =
      .ok ["link.ui"] := FileSystem.locate_path (by decide) (by decide) rfl rfl
  rw [path_link] at located
  rw [FileSystem.locatedText, located]
  rfl

end Site

/-- A definition with an include that leads to nothing is served when it is loaded once more. -/
theorem absent_include_is_served :
    spelling.Faithful ∧ (site [] []).Nameable ∧ (site [] []).isDirectory "/cache" ∧
      (spelling.load (site [] []) (some "/cache") false "/m.ui").2 = .ok (siteFailed .notFound) ∧
      spelling.KeepsApart (site [] []) "/cache" ["m.ui"] ["cache", siteRecordName]
        (siteFailed .notFound) ∧
      (spelling.load (spelling.load (site [] []) (some "/cache") false "/m.ui").1
        (some "/cache") false "/m.ui").2 =
          .ok { siteFailed .notFound with diagnostics := [], fromCache := true } := by
  have nameable : (site [] []).Nameable := nameable_site nofun
  have first := load_site_of_readAt []
    (readAt_site_failed [] [] (locatedText_site_unlinked [] [] rfl))
  have apart : spelling.KeepsApart (site [] []) "/cache" ["m.ui"] ["cache", siteRecordName]
      (siteFailed .notFound) := keepsApart_site resolve_site_unlinked
  have absent : ∀ failed ∈ (siteFailed .notFound).missing,
      (site [] []).isPresent failed = false := by
    intro failed member
    rw [List.mem_singleton.mp member]
    exact isPresent_site_unlinked
  have again := (repeated_loads_are_served faithful_spelling.decodes filled_spelling
    isName_spelling nameable isDirectory_site first
    fun _ => ⟨_, _, definitions_site [] [], apart⟩).mpr absent
  rw [first]
  exact ⟨faithful_spelling, nameable, isDirectory_site, rfl, apart, congrArg Prod.snd again⟩

/-- A definition with an include that leads to a directory is read again, although nothing but the
record has changed since it was read and its record was kept. -/
theorem directory_include_is_read_again :
    spelling.Faithful ∧ (site [] siteDirectory).Nameable ∧
      (site [] siteDirectory).isDirectory "/cache" ∧
      (spelling.load (site [] siteDirectory) (some "/cache") false "/m.ui").2 =
        .ok (siteFailed .isDirectory) ∧
      spelling.KeepsApart (site [] siteDirectory) "/cache" ["m.ui"] ["cache", siteRecordName]
        (siteFailed .isDirectory) ∧
      (spelling.load (spelling.load (site [] siteDirectory) (some "/cache") false "/m.ui").1
        (some "/cache") false "/m.ui").2 = .ok (siteFailed .isDirectory) ∧
      (siteFailed .isDirectory).fromCache = false := by
  have nameable : (site [] siteDirectory).Nameable := nameable_site (by decide)
  have read := readAt_site_failed [] siteDirectory (locatedText_siteDirectory [])
  have first := load_site_of_readAt siteDirectory read
  have apart : spelling.KeepsApart (site [] siteDirectory) "/cache" ["m.ui"]
      ["cache", siteRecordName] (siteFailed .isDirectory) := keepsApart_site (resolve_siteDirectory [])
  have present : (siteFailed .isDirectory).missing.any (site [] siteDirectory).isPresent := by
    refine List.any_eq_true.mpr ⟨"/link.ui", List.mem_singleton_self _, ?_⟩
    rw [FileSystem.isPresent, resolve_siteDirectory]
  have unserved := freshRecord?_put faithful_spelling.decodes filled_spelling nameable
    (apart.put isName_spelling isDirectory_site).1 read rfl apart
  rw [if_pos present] at unserved
  have rereads := readAt_site_failed [siteRecordOf (siteFailed .isDirectory)] siteDirectory
    (locatedText_siteDirectory _)
  refine ⟨faithful_spelling, nameable, isDirectory_site, by rw [first], apart, ?_, rfl⟩
  rw [first]
  exact load_site_again rereads unserved

end CacheScheme

end Menus
