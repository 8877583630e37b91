import Menus.Loading
import Menus.Proofs.Changes

/-!
# Paths after a file has been written

A walk goes through directories and links, and only its end can be a file. So a file that is written
where nothing or another file was changes nothing about where paths lead: they lead to the same
places as before, if what is at their ends may be missing. The only difference is at the place of the
file, which is now there to be used.

Two file systems that have the same directories and links therefore agree on every path that is to be
filled, and a path can be used if it can be filled and something stands where it leads.
-/

namespace Menus

namespace Node

variable {new : Node} {place location : Location} {node : Node}

/-- What stands apart from a place is not touched by putting something there. -/
theorem find?_replace_of_apart (outside : ¬location <+: place) (beside : ¬place <+: location) :
    find? location (replace (some new) place node) = find? location node := by
  fun_induction replace (some new) place node generalizing location with
  | case1 name rest entries last =>
    rw [List.isEmpty_iff] at last
    subst last
    cases location with
    | nil => exact absurd List.nil_prefix outside
    | cons asked further =>
      rw [find?_replaceEntry, if_neg]
      rintro rfl
      exact beside (List.cons_prefix_cons.mpr ⟨rfl, List.nil_prefix⟩)
  | case2 name rest entries more inner entered inductionHypothesis =>
    cases location with
    | nil => exact absurd List.nil_prefix outside
    | cons asked further =>
      rw [find?_replaceEntry]
      split
      · rename_i same
        subst same
        rw [Option.bind_some, find?, Node.entries, entered]
        refine inductionHypothesis ?_ ?_
        · exact fun inside => outside (List.cons_prefix_cons.mpr ⟨rfl, inside⟩)
        · exact fun inside => beside (List.cons_prefix_cons.mpr ⟨rfl, inside⟩)
      · rfl
  | case3 | case4 => rfl

/-- What has been put in a directory stands there. -/
theorem find?_replace_self {directory : Node} {name : String}
    (around : find? location node = some directory) (inside : directory.isDirectory) :
    find? (location ++ [name]) (replace (some new) (location ++ [name]) node) = some new := by
  induction location generalizing node with
  | nil =>
    cases around
    obtain ⟨entries, rfl⟩ := eq_directory inside
    change find? [name] (directory (replaceEntry entries name (some new))) = some new
    rw [find?_replaceEntry, if_pos rfl]
    rfl
  | cons first rest inductionHypothesis =>
    rw [find?] at around
    cases entered : node.entries.lookup first with
    | none => simp [entered] at around
    | some inner =>
      simp only [entered] at around
      obtain ⟨entries, rfl⟩ := eq_directory (isDirectory_of_lookup entered)
      rw [Node.entries] at entered
      have further : (rest ++ [name]).isEmpty = false := by simp
      rw [List.cons_append, replace, further, entered]
      simp only [Bool.false_eq_true, if_false]
      rw [find?_replaceEntry, if_pos rfl]
      exact inductionHypothesis around

end Node

namespace FileSystem

variable {system one other : FileSystem} {path : String} {place location : Location}
  {content : ByteArray} {aim : Aim} {links : Nat} {trail : Trail} {pieces : List String}

/-- The directories and links of the first file system, the ways through it, stand in the second. -/
def KeepsWays (one other : FileSystem) : Prop :=
  ∀ location node, one.node? location = some node → node.isFile = false →
    ∃ found, other.node? location = some found ∧ node.Alike found

/-- A walk to something that is to be used is one to something that is to be filled. -/
theorem Walks.toFill (walks : system.Walks .use links trail pieces place) :
    system.Walks .fill links trail pieces place := by
  induction walks with
  | arrived links trail => exact .arrived links trail
  | idle inside idle onward inductionHypothesis => exact .idle inside idle inductionHypothesis
  | out inside onward inductionHypothesis => exact .out inside inductionHypothesis
  | absent inside step missing last allowed =>
    rcases allowed with asEntry | ⟨toFill, _⟩
    · cases asEntry
    · cases toFill
  | taken step found last asEntry => cases asEntry
  | linked step found further onward inductionHypothesis =>
    exact .linked step found (fun both => nomatch both.2) inductionHypothesis
  | entered step found noLink further onward inductionHypothesis =>
    exact .entered step found noLink (fun both => nomatch both.2) inductionHypothesis

/-- A walk to something that is to be filled is one to something to be used, if that is there. -/
theorem Walks.toUse (walks : system.Walks .fill links trail pieces place)
    (standing : system.Standing trail) (stands : (system.node? place).isSome) :
    system.Walks .use links trail pieces place := by
  induction walks with
  | arrived links trail => exact .arrived links trail
  | idle inside idle onward inductionHypothesis =>
    exact .idle inside idle (inductionHypothesis standing stands)
  | out inside onward inductionHypothesis =>
    exact .out inside (inductionHypothesis standing.tail stands)
  | absent inside step missing last allowed =>
    rw [standing.node?_concat, missing] at stands
    cases stands
  | taken step found last asEntry => cases asEntry
  | linked step found further onward inductionHypothesis =>
    exact .linked step found (fun both => nomatch both.2)
      (inductionHypothesis (standing.startOf _) stands)
  | entered step found noLink further onward inductionHypothesis =>
    exact .entered step found noLink (fun both => nomatch both.2)
      (inductionHypothesis ⟨found, standing⟩ stands)

/-- A path can be used if it can be filled and something stands where it leads. -/
theorem follow_use_iff :
    system.follow .use path = .ok place ↔
      system.follow .fill path = .ok place ∧ (system.node? place).isSome := by
  constructor
  · intro arrives
    obtain ⟨trail, standing, begins, walks⟩ := walks_of_follow arrives
    obtain ⟨node, stands, _⟩ := stands_of_follow arrives
    exact ⟨follow_of_walks standing begins walks.toFill, stands ▸ rfl⟩
  · rintro ⟨arrives, stands⟩
    obtain ⟨trail, standing, begins, walks⟩ := walks_of_follow arrives
    exact follow_of_walks standing begins (walks.toUse standing stands)

/-- No walk goes on from a file. -/
theorem Walks.ends_at_file (walks : system.Walks aim links trail pieces place)
    (isFile : (system.reached trail).isFile) : pieces = [] ∧ place = trail.location := by
  have noDirectory : ¬(system.reached trail).isDirectory := by
    intro isDirectory
    obtain ⟨entries, reached⟩ := Node.eq_directory isDirectory
    rw [reached] at isFile
    cases isFile
  cases walks with
  | arrived => exact ⟨rfl, rfl⟩
  | idle inside | out inside | absent inside => exact absurd inside noDirectory
  | taken step found | linked step found | entered step found =>
    exact absurd (Node.isDirectory_of_lookup found) noDirectory

section Ways

variable (keeps : one.KeepsWays other) {trail otherTrail : Trail} (standing : one.Standing trail)
  (otherStanding : other.Standing otherTrail) (same : otherTrail.location = trail.location)

include keeps standing otherStanding same

/-- The directory reached is one in the other file system, too. -/
theorem isDirectory_of_keepsWays (inside : (one.reached trail).isDirectory) :
    (other.reached otherTrail).isDirectory := by
  obtain ⟨entries, reached⟩ := Node.eq_directory inside
  obtain ⟨node, stands, alike⟩ := keeps _ _ standing.node? (reached ▸ rfl)
  rw [← same, otherStanding.node?] at stands
  cases stands
  exact alike.isDirectory_eq ▸ inside

/-- What stands under a name and is no file stands there in the other file system, too. -/
theorem lookup_of_keepsWays {name : String} {node : Node}
    (found : (one.reached trail).entries.lookup name = some node) (noFile : node.isFile = false) :
    ∃ otherNode, (other.reached otherTrail).entries.lookup name = some otherNode ∧
      node.Alike otherNode := by
  obtain ⟨otherNode, stands, alike⟩ := keeps _ _ ((standing.node?_concat name).trans found) noFile
  rw [← same, otherStanding.node?_concat] at stands
  exact ⟨otherNode, stands, alike⟩

end Ways

/-- Where a walk ends at a name under which there is a file or nothing, a walk in a file system with
the same ways ends as well. -/
theorem walks_of_last {piece : String} {otherTrail : Trail} (kept : other.KeepsWays one)
    (standing : one.Standing trail) (otherStanding : other.Standing otherTrail)
    (same : otherTrail.location = trail.location) (step : IsStep piece)
    (inside : (other.reached otherTrail).isDirectory)
    (fileOrNone : ∀ node, (one.reached trail).entries.lookup piece = some node → node.isFile) :
    other.Walks .fill links otherTrail [piece] (trail.location ++ [piece]) := by
  have further : ¬(([] : List String).all String.isEmpty ∧ Aim.fill = .entry) :=
    fun both => nomatch both.2
  rw [← same]
  cases found : (other.reached otherTrail).entries.lookup piece with
  | none => exact .absent inside step found rfl (.inr ⟨rfl, rfl⟩)
  | some node =>
    have noLink : node.isLink = false := by
      cases node with
      | file | directory => rfl
      | link target =>
        obtain ⟨back, stands, alike⟩ :=
          lookup_of_keepsWays kept otherStanding standing same.symm found rfl
        have isFile := fileOrNone back stands
        cases back with
        | file | directory => exact alike.elim
        | link => cases isFile
    rw [← location_cons piece node]
    exact .entered step found noLink further (.arrived _ _)

/-- Where the ways are the same, walks to what is to be filled arrive at the same places.

Proof: by induction on the walk. A file can only be met at its end, and there it does not matter
whether it stands in the other file system. -/
theorem Walks.fill_of_keepsWays (keeps : one.KeepsWays other) (kept : other.KeepsWays one)
    {trail otherTrail : Trail} (walks : one.Walks .fill links trail pieces place)
    (standing : one.Standing trail) (otherStanding : other.Standing otherTrail)
    (same : otherTrail.location = trail.location) :
    other.Walks .fill links otherTrail pieces place := by
  induction walks generalizing otherTrail with
  | arrived links trail => exact same ▸ .arrived links otherTrail
  | idle inside idle onward inductionHypothesis =>
    exact .idle (isDirectory_of_keepsWays keeps standing otherStanding same inside) idle
      (inductionHypothesis standing otherStanding same)
  | out inside onward inductionHypothesis =>
    refine .out (isDirectory_of_keepsWays keeps standing otherStanding same inside)
      (inductionHypothesis standing.tail otherStanding.tail ?_)
    rw [location_tail, location_tail, same]
  | absent inside step missing last allowed =>
    rcases allowed with asEntry | ⟨_, rfl⟩
    · cases asEntry
    · refine walks_of_last kept standing otherStanding same step
        (isDirectory_of_keepsWays keeps standing otherStanding same inside) ?_
      intro node found
      cases missing.symm.trans found
  | taken step found last asEntry => cases asEntry
  | @linked links trail piece target rest place step found further onward inductionHypothesis =>
    obtain ⟨node, otherFound, alike⟩ :=
      lookup_of_keepsWays keeps standing otherStanding same found rfl
    cases node with
    | file | directory => exact alike.elim
    | link otherTarget =>
      cases alike
      refine .linked step otherFound further
        (inductionHypothesis (standing.startOf target) (otherStanding.startOf target) ?_)
      rw [startOf, startOf]
      split
      · rfl
      · exact same
  | @entered links trail piece rest node place step found noLink further onward
      inductionHypothesis =>
    by_cases isFile : node.isFile
    · obtain ⟨rfl, rfl⟩ := onward.ends_at_file isFile
      rw [location_cons]
      refine walks_of_last kept standing otherStanding same step ?_ ?_
      · exact isDirectory_of_keepsWays keeps standing otherStanding same
          (Node.isDirectory_of_lookup found)
      · intro other otherFound
        cases found.symm.trans otherFound
        exact isFile
    · obtain ⟨otherNode, otherFound, alike⟩ := lookup_of_keepsWays keeps standing otherStanding
        same found (Bool.eq_false_iff.mpr isFile)
      refine .entered step otherFound (alike.isLink_eq ▸ noLink) further
        (inductionHypothesis ⟨found, standing⟩ ⟨otherFound, otherStanding⟩ ?_)
      rw [location_cons, location_cons, same]

/-- A walk along pieces begins in a directory. -/
theorem Walks.inside (walks : system.Walks aim links trail pieces place) (further : pieces ≠ []) :
    (system.reached trail).isDirectory := by
  cases walks with
  | arrived => exact absurd rfl further
  | idle inside | out inside | absent inside => exact inside
  | taken step found | linked step found | entered step found =>
    exact Node.isDirectory_of_lookup found

/-- Where the ways are the same, a path that is to be filled leads to the same place. -/
theorem resolve_fill_of_keepsWays (keeps : one.KeepsWays other) (kept : other.KeepsWays one)
    (same : other.workingDirectory = one.workingDirectory)
    (arrives : one.resolve .fill path = .ok place) : other.resolve .fill path = .ok place := by
  have usable := usable_of_resolve arrives
  obtain ⟨trail, standing, begins, walks⟩ := walks_of_follow (follow_of_resolve arrives)
  obtain ⟨entries, reached⟩ := Node.eq_directory (walks.inside (piecesOf_ne_nil path))
  obtain ⟨node, stands, _⟩ := keeps _ _ standing.node? (reached ▸ rfl)
  obtain ⟨otherTrail, otherStanding, there⟩ := exists_standing stands
  refine resolve_of_follow usable (follow_of_walks otherStanding ?_
    (walks.fill_of_keepsWays keeps kept standing otherStanding there))
  rw [there, begins, same]

/-- A path that is not refused can be used if it can be filled and something stands where it
leads. -/
theorem resolve_use_iff :
    system.resolve .use path = .ok place ↔
      system.resolve .fill path = .ok place ∧ (system.node? place).isSome := by
  cases refused : refusalOf? path with
  | some cause => simp [resolve, refused]
  | none =>
    rw [resolve, resolve, refused]
    exact follow_use_iff

/-- A path leads to something if it can be filled and something stands where it leads. -/
theorem isPresent_iff :
    system.isPresent path = true ↔
      ∃ place, system.resolve .fill path = .ok place ∧ (system.node? place).isSome := by
  have leads : system.isPresent path = true ↔ ∃ place, system.resolve .use path = .ok place := by
    rw [isPresent]
    cases system.resolve .use path <;> simp
  rw [leads]
  exact exists_congr fun place => resolve_use_iff

/-- What is to be filled stands in a directory, unless it stands there already. -/
theorem Walks.stands_or_inside (walks : system.Walks .fill links trail pieces place)
    (standing : system.Standing trail) :
    (system.node? place).isSome ∨
      ∃ front name, place = front ++ [name] ∧ system.isDirectoryAt front := by
  induction walks with
  | arrived links trail => exact .inl (standing.node? ▸ rfl)
  | idle inside idle onward inductionHypothesis => exact inductionHypothesis standing
  | out inside onward inductionHypothesis => exact inductionHypothesis standing.tail
  | absent inside step missing last allowed =>
    refine .inr ⟨_, _, rfl, ?_⟩
    rw [isDirectoryAt, standing.node?]
    exact inside
  | taken step found last asEntry => cases asEntry
  | linked step found further onward inductionHypothesis =>
    exact inductionHypothesis (standing.startOf _)
  | entered step found noLink further onward inductionHypothesis =>
    exact inductionHypothesis ⟨found, standing⟩

section Put

variable (room : ∀ former, system.node? place = some former → former.isFile)

include room

/-- A file put where nothing or a file was leaves all ways. -/
theorem keepsWays_put : system.KeepsWays (system.put place (.file content)) :=
  fun location node stands _ => grows_put_file room location node stands

omit room in
/-- A file that is put somewhere makes no ways. -/
theorem keepsWays_of_put : (system.put place (.file content)).KeepsWays system := by
  intro location node stands noFile
  cases replaced_of_put stands with
  | added put inside =>
    obtain ⟨_, rfl⟩ := Node.find?_of_noEntries rfl (Option.some.inj put ▸ inside)
    cases noFile
  | kept before => exact ⟨node, before, .refl node⟩
  | @around _ old _ before wasDirectory isDirectory =>
    obtain ⟨_, rfl⟩ := Node.eq_directory wasDirectory
    obtain ⟨_, rfl⟩ := Node.eq_directory isDirectory
    exact ⟨_, before, trivial⟩

/-- A path that is to be filled leads where it led. -/
theorem resolve_fill_put :
    (system.put place (.file content)).resolve .fill path = .ok location ↔
      system.resolve .fill path = .ok location := by
  constructor
  · exact resolve_fill_of_keepsWays keepsWays_of_put (keepsWays_put room) rfl
  · exact resolve_fill_of_keepsWays (keepsWays_put room) keepsWays_of_put rfl

/-- Another file stays what it is. -/
theorem node?_put_of_file {kept : ByteArray} (stands : system.node? location = some (.file kept))
    (elsewhere : location ≠ place) :
    (system.put place (.file content)).node? location = some (.file kept) := by
  have grows : system.Grows (system.put place (.file content)) := grows_put_file room
  obtain ⟨found, after, alike⟩ := grows location _ stands
  rw [after]
  rcases new_of_put rfl after with isDirectory | stood | ⟨here, _⟩
  · obtain ⟨entries, rfl⟩ := Node.eq_directory isDirectory
    exact alike.elim
  · exact stood.symm.trans stands
  · exact absurd here elsewhere

/-- What the place is not in stays as it is, with all that is below it. -/
theorem node?_put_of_apart (stands : (system.node? location).isSome)
    (outside : ¬location <+: place) :
    (system.put place (.file content)).node? location = system.node? location := by
  obtain ⟨node, found⟩ := Option.isSome_iff_exists.mp stands
  have beside : ¬place <+: location := by
    rintro ⟨rest, rfl⟩
    have below : rest ≠ [] := by
      rintro rfl
      exact outside (by simp)
    obtain ⟨directory, around, isDirectory⟩ := Node.isDirectory_of_below below found
    have isFile := room directory around
    obtain ⟨entries, rfl⟩ := Node.eq_directory isDirectory
    cases isFile
  rw [node?, root, put, root_replace]
  exact Node.find?_replace_of_apart outside beside

/-- The file stands where it was put. -/
theorem node?_put_self (leads : system.resolve .fill path = .ok place) :
    (system.put place (.file content)).node? place = some (.file content) := by
  obtain ⟨trail, standing, _, walks⟩ := walks_of_follow (follow_of_resolve leads)
  obtain ⟨front, name, rfl, inside⟩ :
      ∃ front name, place = front ++ [name] ∧ system.isDirectoryAt front := by
    rcases walks.stands_or_inside standing with stands | inside
    · obtain ⟨node, found⟩ := Option.isSome_iff_exists.mp stands
      obtain rfl | ⟨front, name, isPlace⟩ := List.eq_nil_or_concat place
      · cases room _ rfl
      · rw [List.concat_eq_append] at isPlace
        subst isPlace
        obtain ⟨directory, around, isDirectory⟩ :=
          Node.isDirectory_of_below (List.cons_ne_nil name []) found
        exact ⟨front, name, rfl, Option.any_eq_true _ _ |>.mpr ⟨directory, around, isDirectory⟩⟩
    · exact inside
  obtain ⟨directory, around, isDirectory⟩ := Option.any_eq_true _ _ |>.mp inside
  rw [node?, root, put, root_replace]
  exact Node.find?_replace_self around isDirectory

/-- The file is read by the path by which it was put. -/
theorem content_put (leads : system.resolve .fill path = .ok place) :
    (system.put place (.file content)).content path = .ok content := by
  have stands : (system.put place (.file content)).node? place = some (.file content) :=
    node?_put_self room leads
  have resolved : (system.put place (.file content)).resolve .use path = .ok place :=
    resolve_use_iff.mpr ⟨(resolve_fill_put room).mpr leads, stands ▸ rfl⟩
  simp [FileSystem.content, resolved, contentAt, stands, bind, Except.bind]

/-- Definitions are found where they were found. -/
theorem definitions_put (found : system.definitions path = .ok location) :
    (system.put place (.file content)).definitions path = .ok location := by
  have resolved : system.resolve .use path = .ok location := by
    rw [definitions] at found
    split at found
    · rename_i resolved
      cases found
      exact resolved
    · cases found
  obtain ⟨leads, stands⟩ := resolve_use_iff.mp resolved
  obtain ⟨node, stood⟩ := Option.isSome_iff_exists.mp stands
  have grows : system.Grows (system.put place (.file content)) := grows_put_file room
  obtain ⟨grown, standsStill, _⟩ := grows location node stood
  rw [definitions, resolve_use_iff.mpr ⟨(resolve_fill_put room).mpr leads, standsStill ▸ rfl⟩]

/-- A path that does not lead to the file leads to something if it did. -/
theorem isPresent_put (elsewhere : system.resolve .fill path ≠ .ok place) :
    (system.put place (.file content)).isPresent path = system.isPresent path := by
  rw [Bool.eq_iff_iff, isPresent_iff, isPresent_iff]
  constructor
  · rintro ⟨location, leads, stands⟩
    rw [resolve_fill_put room] at leads
    obtain ⟨node, found⟩ := Option.isSome_iff_exists.mp stands
    refine ⟨location, leads, ?_⟩
    cases replaced_of_put found with
    | added put inside =>
      obtain ⟨rfl, _⟩ := Node.find?_of_noEntries rfl (Option.some.inj put ▸ inside)
      rw [List.append_nil] at leads
      exact absurd leads elsewhere
    | kept before | around before => exact Option.isSome_iff_exists.mpr ⟨_, before⟩
  · rintro ⟨location, leads, stands⟩
    obtain ⟨node, stood⟩ := Option.isSome_iff_exists.mp stands
    have grows : system.Grows (system.put place (.file content)) := grows_put_file room
    obtain ⟨grown, standsStill, _⟩ := grows location node stood
    exact ⟨location, (resolve_fill_put room).mpr leads, standsStill ▸ rfl⟩

end Put

end FileSystem

end Menus
