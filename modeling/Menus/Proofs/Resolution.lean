import Menus.Proofs.Walks

/-!
# Where paths lead

A path begins at the root or in the working directory, and the walk along its pieces decides where it
leads. What is used stands there and is no link. The path of a location leads to that location, as
long as no link stands on the way; and where something other than a link stands at the location, it
can lead nowhere else.
-/

namespace Menus

namespace Path

/-- A text without slashes is one piece. -/
theorem pieces_of_noSlash {text : List Char} (noSlash : '/' ∉ text) : pieces text = [text] := by
  induction text with
  | nil => rfl
  | cons c rest inductionHypothesis =>
    rw [List.mem_cons, not_or] at noSlash
    rw [pieces, if_neg (Ne.symm noSlash.1), inductionHypothesis noSlash.2]

/-- A slash ends a piece. -/
theorem pieces_append_slash {front : List Char} (noSlash : '/' ∉ front) (rest : List Char) :
    pieces (front ++ '/' :: rest) = front :: pieces rest := by
  induction front with
  | nil => rfl
  | cons c front inductionHypothesis =>
    rw [List.mem_cons, not_or] at noSlash
    rw [List.cons_append, pieces, if_neg (Ne.symm noSlash.1), inductionHypothesis noSlash.2]

end Path

/-- A name is a step into an entry. -/
theorem IsName.stepOf?_eq {name : String} (isName : IsName name) :
    Path.stepOf? name.toList = some (.into name.toList) := by
  have notEmpty : name.toList ≠ [] := fun same => isName.nonempty (String.toList_eq_nil_iff.mp same)
  have notHere : name.toList ≠ ['.'] := fun same => isName.notHere (String.toList_inj.mp same)
  have notUp : name.toList ≠ ['.', '.'] := fun same => isName.notUp (String.toList_inj.mp same)
  rw [Path.stepOf?, if_neg (not_or.mpr ⟨notEmpty, notHere⟩), if_neg notUp]

namespace Location

/-- Between slashes stand the names. -/
theorem pieces_intercalate {names : List String} (filled : names ≠ [])
    (noSlashes : ∀ name ∈ names, '/' ∉ name.toList) :
    Path.pieces ("/".intercalate names).toList = names.map String.toList := by
  induction names with
  | nil => exact absurd rfl filled
  | cons name rest inductionHypothesis =>
    obtain ⟨noSlash, noSlashes⟩ := List.forall_mem_cons.mp noSlashes
    cases rest with
    | nil => simpa using Path.pieces_of_noSlash noSlash
    | cons other rest =>
      have others := inductionHypothesis (List.cons_ne_nil other rest) noSlashes
      rw [String.intercalate_cons_cons, String.toList_append, String.toList_append,
        List.append_assoc]
      exact (Path.pieces_append_slash noSlash _).trans (congrArg _ others)

/-- The path of a location is a slash and the names with slashes between them. -/
theorem toList_path (location : Location) :
    location.path.toList = '/' :: ("/".intercalate location).toList := by
  rw [path, String.toList_append]
  rfl

/-- The path of a location has its names as pieces, behind the slash it begins with. -/
theorem pieces_path {location : Location} (proper : location.Proper) (below : location ≠ []) :
    Path.pieces location.path.toList = [] :: location.map String.toList := by
  rw [toList_path, Path.pieces, if_pos rfl,
    pieces_intercalate below fun name member => (proper name member).noSlash]

theorem piecesOf_path {location : Location} (proper : location.Proper) (below : location ≠ []) :
    FileSystem.piecesOf location.path = "" :: location := by
  rw [FileSystem.piecesOf, pieces_path proper below]
  simp

/-- Proper locations differ in their paths. -/
theorem path_injective {location other : Location} (proper : location.Proper)
    (otherProper : other.Proper) (same : location.path = other.path) : location = other := by
  by_cases top : location = []
  · by_cases otherTop : other = []
    · rw [top, otherTop]
    · have divided := piecesOf_path otherProper otherTop
      rw [← same, top] at divided
      have named := otherProper "" ((List.cons.inj divided).2 ▸ List.mem_cons_self)
      exact absurd rfl named.nonempty
  · have divided := piecesOf_path proper top
    by_cases otherTop : other = []
    · rw [same, otherTop] at divided
      have named := proper "" ((List.cons.inj divided).2 ▸ List.mem_cons_self)
      exact absurd rfl named.nonempty
    · rw [same, piecesOf_path otherProper otherTop] at divided
      exact (List.cons.inj divided).2.symm

/-- The names of the location are such that a walk enters them. -/
def Reachable (location : Location) : Prop :=
  ∀ name ∈ location, IsName name ∧ name.utf8ByteSize ≤ FileSystem.nameLimit

instance (location : Location) : Decidable location.Reachable :=
  inferInstanceAs
    (Decidable (∀ name ∈ location, IsName name ∧ name.utf8ByteSize ≤ FileSystem.nameLimit))

theorem Reachable.proper {location : Location} (reachable : location.Reachable) : location.Proper :=
  fun name member => (reachable name member).1

theorem Reachable.isStep {location : Location} (reachable : location.Reachable) :
    ∀ name ∈ location, FileSystem.IsStep name := by
  intro name member
  obtain ⟨isName, short⟩ := reachable name member
  exact ⟨isName.nonempty, isName.notHere, isName.notUp, short⟩

/-- The path of a location is absolute. -/
theorem head?_path (location : Location) : location.path.toList.head? = some '/' := by
  rw [toList_path]
  rfl

end Location

namespace FileSystem

variable {system : FileSystem} {aim : Aim} {path : String} {place location : Location}

/-- A path that leads somewhere is walked from where it begins. -/
theorem walks_of_follow (arrives : system.follow aim path = .ok place) :
    ∃ trail, system.Standing trail ∧ trail.location = startOf system.workingDirectory path ∧
      system.Walks aim linkLimit trail (piecesOf path) place := by
  rw [follow] at arrives
  rw [startOf]
  split at arrives
  · cases arrives
  · rename_i trail begins
    refine ⟨trail, ?_⟩
    split at begins
    · rename_i absolute
      cases begins
      exact ⟨trivial, (if_pos absolute).symm ▸ rfl, walk_eq_ok_iff.mp arrives⟩
    · rename_i relative
      obtain ⟨standing, same⟩ := (standing_nil system).enter? begins
      exact ⟨standing, (if_neg relative).symm ▸ same, walk_eq_ok_iff.mp arrives⟩

/-- A walk from where a path begins is the walk along the path. -/
theorem follow_of_walks {trail : Trail} (standing : system.Standing trail)
    (begins : trail.location = startOf system.workingDirectory path)
    (walks : system.Walks aim linkLimit trail (piecesOf path) place) :
    system.follow aim path = .ok place := by
  rw [follow]
  rw [startOf] at begins
  split
  · rename_i stuck
    split at stuck
    · cases stuck
    · rename_i relative
      rw [if_neg relative] at begins
      have entered := (standing_nil system).isSome_enter?
        (begins ▸ standing.node? ▸ rfl : (system.node? system.workingDirectory).isSome)
      rw [stuck] at entered
      cases entered
  · rename_i start starts
    refine walk_eq_ok_iff.mpr ?_
    split at starts
    · rename_i absolute
      cases starts
      rw [if_pos absolute] at begins
      exact standing.unique (standing_nil system) begins ▸ walks
    · rename_i relative
      rw [if_neg relative] at begins
      obtain ⟨startStanding, same⟩ := (standing_nil system).enter? starts
      exact standing.unique startStanding (begins.trans same.symm) ▸ walks

theorem piecesOf_ne_nil (path : String) : piecesOf path ≠ [] := by
  rw [piecesOf, ne_eq, List.map_eq_nil_iff]
  exact Path.pieces_ne_nil _

/-- A path leads to something that stands there, and is no link. -/
theorem stands_of_follow (arrives : system.follow .use path = .ok place) :
    ∃ node, system.node? place = some node ∧ node.isLink = false := by
  obtain ⟨trail, standing, _, walks⟩ := walks_of_follow arrives
  have noLink := walks.noLink (piecesOf_ne_nil path)
  rcases walks.stands (by decide) standing noLink with stands | ⟨toFill, _⟩
  · exact stands
  · cases toFill

/-- Where something is to be filled no link stands. -/
theorem noLink_of_follow (arrives : system.follow .fill path = .ok place) {node : Node}
    (found : system.node? place = some node) : node.isLink = false := by
  obtain ⟨trail, standing, _, walks⟩ := walks_of_follow arrives
  have noLink := walks.noLink (piecesOf_ne_nil path)
  rcases walks.stands (by decide) standing noLink with ⟨other, stands, otherNoLink⟩ | ⟨_, missing⟩
  · cases found.symm.trans stands
    exact otherNoLink
  · cases found.symm.trans missing

/-- A path leads to a proper location. -/
theorem proper_of_follow (proper : system.Proper) (arrives : system.follow aim path = .ok place) :
    place.Proper := by
  obtain ⟨trail, standing, _, walks⟩ := walks_of_follow arrives
  exact walks.proper proper standing fun piece => not_mem_of_mem_piecesOf

/-- A path that leads somewhere has an entry there, or one that is a link. -/
theorem entry_of_follow (arrives : system.follow aim path = .ok place) :
    ∃ entry, system.follow .entry path = .ok entry ∧
      (entry = place ∨ ∃ target, system.node? entry = some (.link target)) := by
  obtain ⟨trail, standing, begins, walks⟩ := walks_of_follow arrives
  obtain ⟨entry, toEntry, same⟩ := walks.toEntry standing
  exact ⟨entry, follow_of_walks standing begins toEntry, same⟩

/-- A path to an entry leads to the same place in a file system that has grown. -/
theorem follow_of_grows {before after : FileSystem} (grows : before.Grows after)
    (same : after.workingDirectory = before.workingDirectory)
    (arrives : before.follow .entry path = .ok place) : after.follow .entry path = .ok place := by
  obtain ⟨trail, standing, begins, walks⟩ := walks_of_follow arrives
  obtain ⟨node, stands, _⟩ := grows _ _ standing.node?
  obtain ⟨other, otherStanding, otherSame⟩ := exists_standing stands
  refine follow_of_walks otherStanding ?_ (walks.grows grows standing otherStanding otherSame)
  rw [otherSame, begins, same]

/-- The path of a location leads there if no link is passed. -/
theorem place_of_path (proper : location.Proper)
    (noLinks : ∀ front target, front <+: location → (aim = .entry → front ≠ location) →
      system.node? front ≠ some (.link target))
    (arrives : system.follow aim location.path = .ok place) : place = location := by
  obtain ⟨trail, standing, begins, walks⟩ := walks_of_follow arrives
  rw [startOf, if_pos location.head?_path] at begins
  by_cases top : location = []
  · rw [walks.place_of_slashes (by rw [top]; decide), begins, top]
  · rw [Location.piecesOf_path proper top] at walks
    have onward := walks.behind_slash rfl
    rw [onward.place_of_names standing proper, begins, List.nil_append]
    intro front target isFront notWhole
    rw [begins, List.nil_append]
    exact noLinks front target isFront notWhole

/-- The path of a location at which something other than a link stands leads nowhere else. -/
theorem place_of_path_of_stands {node : Node} (proper : location.Proper)
    (stands : system.node? location = some node) (noLink : node.isLink = false)
    (arrives : system.follow aim location.path = .ok place) : place = location := by
  refine place_of_path proper ?_ arrives
  rintro front target ⟨rest, rfl⟩ _ isLink
  by_cases whole : rest = []
  · rw [whole, List.append_nil, isLink] at stands
    cases stands
    cases noLink
  · obtain ⟨directory, found, isDirectory⟩ := Node.isDirectory_of_below whole stands
    cases isLink.symm.trans found
    cases isDirectory

/-- The path of a location leads there if something other than a link stands there. -/
theorem follow_path {node : Node} (follows : aim ≠ .entry) (reachable : location.Reachable)
    (stands : system.node? location = some node) (noLink : node.isLink = false) :
    system.follow aim location.path = .ok location := by
  have begins : Trail.location [] = startOf system.workingDirectory location.path :=
    (if_pos location.head?_path).symm
  refine follow_of_walks (standing_nil system) begins ?_
  by_cases top : location = []
  · subst top
    exact .idle rfl (.inl rfl) (.idle rfl (.inl rfl) (.arrived _ _))
  · rw [Location.piecesOf_path reachable.proper top, ← List.append_nil location]
    refine .idle rfl (.inl rfl) ?_
    refine walks_of_names (fun both => follows both.2) (standing_nil system) reachable.isStep
      stands noLink ?_
    intro inner _ here
    rw [List.append_nil, ← List.nil_append location, ← show Trail.location [] = [] from rfl, ← here]
    exact .arrived _ inner

/-- Along the path of an entry one gets to the directory, and there to the name. -/
theorem follow_path_concat {name : String} (reachable : Location.Reachable (location ++ [name]))
    (inside : system.isDirectoryAt location)
    (onward : ∀ inner, system.Standing inner → inner.location = location →
      (system.reached inner).isDirectory → IsStep name →
      system.Walks aim linkLimit inner [name] (location ++ [name])) :
    system.follow aim (Location.path (location ++ [name])) = .ok (location ++ [name]) := by
  have begins : Trail.location [] =
      startOf system.workingDirectory (Location.path (location ++ [name])) :=
    (if_pos (Location.head?_path _)).symm
  refine follow_of_walks (standing_nil system) begins ?_
  rw [Location.piecesOf_path reachable.proper (List.concat_ne_nil _ _)]
  refine .idle rfl (.inl rfl) ?_
  obtain ⟨node, stands, isDirectory⟩ := Option.any_eq_true _ _ |>.mp inside
  obtain ⟨entries, rfl⟩ := Node.eq_directory isDirectory
  have ⟨outer, last⟩ := List.forall_mem_append.mp reachable.isStep
  have isStep := last name (List.mem_singleton_self name)
  have further : ¬([name].all String.isEmpty ∧ aim = .entry) := by
    simp [isStep.nonempty]
  refine walks_of_names further (standing_nil system) outer stands rfl ?_
  intro inner standing here
  rw [show Trail.location [] = [] from rfl, List.nil_append] at here
  rw [← here, standing.node?] at stands
  exact onward inner standing here (Option.some.inj stands ▸ rfl) isStep

/-- Where nothing stands under a name in a directory, the path leads there to be filled. -/
theorem follow_path_of_absent {name : String} (reachable : Location.Reachable (location ++ [name]))
    (inside : system.isDirectoryAt location) (absent : system.node? (location ++ [name]) = none) :
    system.follow .fill (Location.path (location ++ [name])) = .ok (location ++ [name]) := by
  refine follow_path_concat reachable inside ?_
  intro inner standing here isDirectory isStep
  rw [← here, standing.node?_concat] at absent
  rw [← here]
  exact .absent isDirectory isStep absent rfl (.inr ⟨rfl, rfl⟩)

/-- The path of a name that is missing in the root leads to nothing that can be used. -/
theorem follow_path_of_missing {name : String} (reachable : Location.Reachable [name])
    (absent : system.node? [name] = none) :
    system.follow .use (Location.path [name]) = .error .notFound := by
  have missing : (system.reached []).entries.lookup name = none := by
    change system.root.entries.lookup name = none
    rw [node?, Node.find?] at absent
    split at absent
    · cases absent
    · assumption
  have last : system.walk .use linkLimit [] [name] = .error .notFound := by
    rw [walk_step (reachable.isStep name List.mem_cons_self) rfl, missing]
    rfl
  rw [follow, Location.piecesOf_path reachable.proper (List.cons_ne_nil _ _),
    if_pos (Location.head?_path _)]
  change system.walk .use linkLimit [] ["", name] = _
  rw [walk]
  exact (if_pos (.inl rfl)).trans last

/-- The path of an entry leads to the entry, even if that is a link. -/
theorem follow_path_of_present {name : String} {node : Node}
    (reachable : Location.Reachable (location ++ [name]))
    (present : system.node? (location ++ [name]) = some node) :
    system.follow .entry (Location.path (location ++ [name])) = .ok (location ++ [name]) := by
  have inside : system.isDirectoryAt location := by
    obtain ⟨directory, found, isDirectory⟩ :=
      Node.isDirectory_of_below (List.cons_ne_nil name []) present
    exact Option.any_eq_true _ _ |>.mpr ⟨directory, found, isDirectory⟩
  refine follow_path_concat reachable inside ?_
  intro inner standing here _ isStep
  rw [← here, standing.node?_concat] at present
  rw [← here]
  exact .taken isStep present rfl rfl

/-- A path that is not refused is followed. -/
theorem follow_of_resolve (arrives : system.resolve aim path = .ok place) :
    system.follow aim path = .ok place := by
  rw [resolve] at arrives
  split at arrives
  · cases arrives
  · exact arrives

/-- A path that is not refused is one. -/
theorem flawOf?_of_refusalOf? (usable : refusalOf? path = none) : flawOf? path = none := by
  rw [refusalOf?] at usable
  split at usable
  · cases usable
  · assumption

/-- A path is not refused if it has characters, none of them NUL, and is not too long. -/
theorem refusalOf?_eq_none_iff :
    refusalOf? path = none ↔
      path.toList ≠ [] ∧ '\x00' ∉ path.toList ∧ path.utf8ByteSize ≤ pathLimit := by
  by_cases empty : path = ""
  · simp [refusalOf?, flawOf?, empty]
  · by_cases nul : '\x00' ∈ path.toList
    · simp [refusalOf?, flawOf?, empty, nul]
    · simp [refusalOf?, flawOf?, empty, nul]

/-- A path that leads somewhere is not refused. -/
theorem usable_of_resolve (arrives : system.resolve aim path = .ok place) :
    refusalOf? path = none := by
  rw [resolve] at arrives
  split at arrives
  · cases arrives
  · assumption

/-- A path that is not refused leads to an entry, or past one that is a link. -/
theorem entry_of_resolve (arrives : system.resolve aim path = .ok place) :
    ∃ entry, system.resolve .entry path = .ok entry ∧
      (entry = place ∨ ∃ target, system.node? entry = some (.link target)) := by
  rw [resolve] at arrives ⊢
  split at arrives
  · cases arrives
  · exact entry_of_follow arrives

/-- A path to an entry is resolved to the same place in a file system that has grown. -/
theorem resolve_of_grows {before after : FileSystem} (grows : before.Grows after)
    (same : after.workingDirectory = before.workingDirectory)
    (arrives : before.resolve .entry path = .ok place) : after.resolve .entry path = .ok place := by
  rw [resolve] at arrives ⊢
  split at arrives
  · cases arrives
  · exact follow_of_grows grows same arrives

/-- A path that is not refused is resolved as it is followed. -/
theorem resolve_of_follow (usable : refusalOf? path = none)
    (arrives : system.follow aim path = .ok place) : system.resolve aim path = .ok place := by
  rw [resolve, usable]
  exact arrives

/-- A path that is one is followed. -/
theorem follow_of_locate (arrives : system.locate aim path = .ok place) :
    system.follow aim path = .ok place := by
  rw [locate] at arrives
  split at arrives
  · cases arrives
  · exact arrives

/-- A path that is short enough leads somewhere when it is resolved as well. -/
theorem resolve_eq_locate (short : path.utf8ByteSize ≤ pathLimit) :
    system.resolve aim path = system.locate aim path := by
  rw [resolve, locate, refusalOf?]
  cases flawOf? path with
  | some cause => rfl
  | none => simp only [if_neg (Nat.not_lt.mpr short)]

/-- The content of a file is read where its path leads. -/
theorem contentAt_of_content {content : ByteArray} (read : system.content path = .ok content) :
    ∃ place, system.resolve .use path = .ok place ∧ system.contentAt place = .ok content := by
  cases resolved : system.resolve .use path with
  | error cause => simp [FileSystem.content, resolved, bind, Except.bind] at read
  | ok place =>
    exact ⟨place, rfl, by simpa [FileSystem.content, resolved, bind, Except.bind] using read⟩

/-- Only a file has content. -/
theorem file_of_contentAt {content : ByteArray} (read : system.contentAt place = .ok content) :
    system.node? place = some (.file content) := by
  rw [contentAt] at read
  split at read
  · rename_i stands
    exact stands.trans (congrArg _ (congrArg _ (Except.ok.inj read)))
  · cases read
  · cases read

end FileSystem

end Menus
