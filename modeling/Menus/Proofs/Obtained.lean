import Menus.Proofs.Freshness
import Menus.Proofs.Grammar
import Menus.Proofs.Updates

/-!
# Registries that are kept whole

A record keeps no statuses and no attached menus, and whoever gets a registry from a record gets it
without them. Nothing is lost if there were none. That is so for every registry that an application
obtains without setting entries itself: by reading tokens, by loading files, by merging registries it
obtained so, and by excluding commands. Each of these keeps a registry of templates one of templates,
whatever the tokens are and however reading recovers from mistakes in them.

Loads may themselves be answered from a record. If that was written of such a registry, the answer is
one again.
-/

namespace Menus

namespace CacheScheme

/-- A record is read back as it was written, with its registry as templates. -/
def Decodes (scheme : CacheScheme) : Prop :=
  ∀ record, scheme.decode? (scheme.encode record) =
    some { record with registry := record.registry.asTemplates }

/-- What a cache holds for the definitions at a path is this record, if it is any. -/
def Holds (scheme : CacheScheme) (system : FileSystem) (directory path : String)
    (record : CacheRecord) : Prop :=
  ∀ root content, system.definitions path = .ok root →
    system.content (scheme.recordPath directory (Location.path root)) = .ok content →
    scheme.decode? content = none ∨ content = scheme.encode record

/-- A registry that an application obtains from an empty one without setting entries itself. -/
inductive Obtained (scheme : CacheScheme) : Registry → Prop where
  | empty : Obtained scheme {}
  /-- A block of menus is read. -/
  | read {registry : Registry} (earlier : Obtained scheme registry) (cursor : Cursor) :
      Obtained scheme (registry.read cursor).1
  /-- A definition text is read. -/
  | parse (file text : String) : Obtained scheme (Registry.parse file text).1
  /-- Files are loaded, with or without a cache, and read. -/
  | load {system : FileSystem} {directory : Option String} {bypass : Bool} {path : String}
      {loaded : Loaded} (answer : (scheme.load system directory bypass path).2 = .ok loaded)
      (isRead : loaded.fromCache = false) : Obtained scheme loaded.registry
  /-- Files are loaded through a cache that holds a record of such a registry. -/
  | serve {system : FileSystem} {directory : String} {bypass : Bool} {path : String}
      {loaded : Loaded} {record : CacheRecord} (earlier : Obtained scheme record.registry)
      (holds : scheme.Holds system directory path record)
      (answer : (scheme.load system (some directory) bypass path).2 = .ok loaded) :
      Obtained scheme loaded.registry
  /-- Two such registries are merged. -/
  | merge {registry other : Registry} (earlier : Obtained scheme registry)
      (otherEarlier : Obtained scheme other) : Obtained scheme (registry.merge other)
  /-- Commands are excluded. -/
  | exclude {registry : Registry} (earlier : Obtained scheme registry) (commands : List String) :
      Obtained scheme (registry.withExclusions (Registry.exclusionMenu commands))

variable {scheme : CacheScheme} {system : FileSystem} {directory path : String} {bypass : Bool}
  {loaded : Loaded} {record : CacheRecord}

/-- What is read from files was not kept. -/
theorem fromCache_of_readAt {digest : ByteArray → String} {root : Location}
    (read : system.readAt digest root = .ok loaded) : loaded.fromCache = false := by
  obtain ⟨_, reading, _, rfl⟩ := FileSystem.readAt_eq_ok_iff.mp read
  rfl

/-- A load that is not answered from the cache is answered by reading. -/
theorem readAt_of_load {directory : Option String}
    (answer : (scheme.load system directory bypass path).2 = .ok loaded)
    (isRead : loaded.fromCache = false) :
    ∃ root, system.readAt scheme.digest root = .ok loaded := by
  cases directory with
  | none =>
    rw [load] at answer
    split at answer
    · cases answer
    · rename_i root found
      exact ⟨root, answer⟩
  | some directory =>
    have loads : scheme.Loads system directory bypass path
      (scheme.load system (some directory) bypass path) := loads_load
    generalize scheme.load system (some directory) bypass path = outcome at *
    cases loads with
    | absent | failed => cases answer
    | served =>
      cases answer
      cases isRead
    | read found read =>
      cases answer
      exact ⟨_, read⟩

/-- A load that is answered from a cache is answered with the record that the cache holds, as it is
read back. -/
theorem decode?_of_load (holds : scheme.Holds system directory path record)
    (answer : (scheme.load system (some directory) bypass path).2 = .ok loaded)
    (isServed : loaded.fromCache = true) :
    ∃ found, scheme.decode? (scheme.encode record) = some found ∧ loaded = found.toLoaded := by
  have loads : scheme.Loads system directory bypass path
    (scheme.load system (some directory) bypass path) := loads_load
  generalize scheme.load system (some directory) bypass path = outcome at *
  cases loads with
  | absent | failed => cases answer
  | read _ read =>
    cases answer
    cases (fromCache_of_readAt read).symm.trans isServed
  | @served root served found fresh =>
    cases answer
    obtain ⟨content, contained, _, decoded, _⟩ := freshRecord?_eq_some_iff.mp fresh
    rcases holds root content found contained with undecoded | rfl
    · cases decoded.symm.trans undecoded
    · exact ⟨served, decoded, rfl⟩

end CacheScheme

/-- A definition text contributes templates. -/
theorem Statement.isTemplate_readDefinition (file : String) (tokens : List Token) :
    ∀ statement ∈ readDefinition file tokens, statement.IsTemplate := by
  fun_induction readDefinition file tokens with
  | case1 => exact fun _ member => absurd member List.not_mem_nil
  | case2 =>
    exact List.forall_mem_append.mpr ⟨Passage.isTemplate_readMenuset _ _, by assumption⟩
  | case3 => exact List.forall_mem_cons.mpr ⟨trivial, by assumption⟩

namespace Registry

/-- What a registry of templates gives to another one is made of templates. -/
theorem IsTemplates.contributions {registry : Registry} (templates : registry.IsTemplates) :
    ∀ contribution ∈ registry.contributions, contribution.IsTemplate := by
  refine List.forall_mem_cons.mpr ⟨templates.menubar, ?_⟩
  intro contribution member
  obtain ⟨menu, among, rfl⟩ := List.mem_map.mp member
  exact templates.menus menu among

/-- Merging registries of templates leaves one of templates. -/
theorem IsTemplates.merge {registry other : Registry} (templates : registry.IsTemplates)
    (others : other.IsTemplates) : (registry.merge other).IsTemplates := by
  rw [merge_eq_contributeAll]
  exact templates.contributeAll others.contributions

end Registry

namespace CacheScheme

/-- Every registry that is obtained in these ways holds templates.

Proof: by induction on the ways. A registry from a record has lost nothing, since by the induction
hypothesis there was nothing to lose. -/
theorem Obtained.isTemplates {scheme : CacheScheme} (decodes : scheme.Decodes)
    {registry : Registry} (obtained : scheme.Obtained registry) : registry.IsTemplates := by
  induction obtained with
  | empty => exact Registry.isTemplates_empty
  | read earlier cursor inductionHypothesis =>
    exact inductionHypothesis.contributeAll
      (Statement.isTemplate_contributions (Passage.isTemplate_readMenuset _ _))
  | parse file text =>
    exact Registry.isTemplates_empty.contributeAll
      (Statement.isTemplate_contributions (Statement.isTemplate_readDefinition _ _))
  | load answer isRead =>
    obtain ⟨root, read⟩ := readAt_of_load answer isRead
    exact FileSystem.isTemplates_of_readAt read
  | @serve _ _ _ _ loaded record earlier holds answer inductionHypothesis =>
    cases isServed : loaded.fromCache with
    -- the record may be stale or bypassed: then it has no part in the answer
    | false =>
      obtain ⟨root, read⟩ := readAt_of_load answer isServed
      exact FileSystem.isTemplates_of_readAt read
    | true =>
      obtain ⟨found, decoded, rfl⟩ := decode?_of_load holds answer isServed
      rw [decodes, inductionHypothesis.asTemplates_eq, Option.some.injEq] at decoded
      exact decoded ▸ inductionHypothesis
  | merge earlier otherEarlier inductionHypothesis otherHypothesis =>
    exact inductionHypothesis.merge otherHypothesis
  | exclude earlier commands inductionHypothesis =>
    exact { inductionHypothesis with exclusions := Registry.isTemplate_exclusionMenu commands }

/-- Every registry that an application obtains from an empty one by reading, loading, merging and
excluding commands holds templates only: entries that nobody has asked about, without a menu attached,
optional only where they are commands or submenus, and without a label where they are separators or
stand for a generated list. So nothing is lost of it when it is kept. Its record is read back as it
was written, and a load that is answered from a cache that holds this record gives the registry
itself. -/
theorem obtained_registries_are_kept {scheme : CacheScheme} (decodes : scheme.Decodes)
    {registry : Registry} (obtained : scheme.Obtained registry) :
    registry.IsTemplates ∧ registry.asTemplates = registry ∧
      ∀ record : CacheRecord, record.registry = registry →
        scheme.decode? (scheme.encode record) = some record ∧
        ∀ system directory bypass path loaded, scheme.Holds system directory path record →
          (scheme.load system (some directory) bypass path).2 = .ok loaded →
          loaded.fromCache = true → loaded.registry = registry := by
  have templates := obtained.isTemplates decodes
  refine ⟨templates, templates.asTemplates_eq, ?_⟩
  rintro record rfl
  have readBack : scheme.decode? (scheme.encode record) = some record := by
    rw [decodes, templates.asTemplates_eq]
  refine ⟨readBack, ?_⟩
  intro system directory bypass path loaded holds answer isServed
  obtain ⟨found, decoded, rfl⟩ := decode?_of_load holds answer isServed
  cases readBack.symm.trans decoded
  rfl

/-- The registry of a text with a mistake in it, merged with the one that a site is loaded to, and
with a command excluded. -/
def gathered : Registry :=
  ((Registry.parse "menus" "menuset menubar optitem Open|O open oops separator end end").1.merge
    siteLoaded.registry).withExclusions (Registry.exclusionMenu ["quit"])

/-- The registry of the site is obtained by loading it. -/
theorem obtained_site : spelling.Obtained siteLoaded.registry := by
  have answer : (spelling.load (site [] siteEntries) (some "/cache") false "/m.ui").2 =
      .ok siteLoaded := by rw [load_site]
  exact .load answer rfl

/-- The gathered registry is kept whole, and so is that of the site, which a second load gives again
from the cache. -/
theorem gathered_registry_is_kept :
    spelling.Decodes ∧ spelling.Obtained gathered ∧
      gathered =
        { menubar := ⟨"", [{ Entry.command "Open|O" (.ofMenu "open" "") with optional := true },
            .separator, .separator]⟩
          exclusions := ⟨"", [.command "quit" (.ofMenu "quit" "")]⟩ } ∧
      gathered.IsTemplates ∧ gathered.asTemplates = gathered ∧
      ∃ loaded,
        (spelling.load (site [siteRecord] siteEntries) (some "/cache") false "/m.ui").2 =
          .ok loaded ∧
        loaded.fromCache = true ∧ loaded.registry = siteLoaded.registry := by
  have obtained : spelling.Obtained gathered := .exclude (.merge (.parse _ _) obtained_site) ["quit"]
  have decodes : spelling.Decodes := faithful_spelling.decodes
  obtain ⟨templates, same, _⟩ := obtained_registries_are_kept decodes obtained
  obtain ⟨_, _, kept⟩ := obtained_registries_are_kept decodes obtained_site
  have holds : spelling.Holds (site [siteRecord] siteEntries) "/cache" "/m.ui"
      (.ofLoaded siteLoaded) := by
    intro root content found contained
    cases (definitions_site [siteRecord] siteEntries).symm.trans found
    exact .inr (Except.ok.inj (contained.symm.trans (content_siteRecord siteEntries)))
  have answer : (spelling.load (site [siteRecord] siteEntries) (some "/cache") false "/m.ui").2 =
      .ok (CacheRecord.ofLoaded siteLoaded).toLoaded := by rw [served_site]
  refine ⟨decodes, obtained, by decide +kernel, templates, same, _, answer, rfl, ?_⟩
  exact (kept (.ofLoaded siteLoaded) rfl).2 _ _ _ _ _ holds answer rfl

end CacheScheme

end Menus
