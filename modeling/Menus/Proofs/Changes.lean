import Menus.Proofs.Resolution

/-!
# Changes of a file system

What can happen to a file system between two loads: files are written, directories created, links
placed, and anything removed. A change that fails leaves everything as it was, except that creating
a directory can stop halfway. All changes keep a file system proper.
-/

namespace Menus

/-- A change of a file system. -/
inductive Change where
  | write (path : String) (content : ByteArray)
  /-- Creates a directory and those around it that are missing. -/
  | createDirectories (path : String)
  | link (path target : String)
  | removeFile (path : String)
  /-- Removes what is there, a directory with all that is in it. -/
  | removeTree (path : String)

namespace FileSystem

/-- The file system after something has been tried: if it failed, nothing has changed. -/
def after (system : FileSystem) (outcome : Except AccessError FileSystem) : FileSystem :=
  outcome.toOption.getD system

/-- The file system after a change. -/
def change (system : FileSystem) : Change → FileSystem
  | .write path content => system.after (system.write path content)
  | .createDirectories path => (system.createDirectories path).1
  | .link path target => system.after (system.link path target)
  | .removeFile path => system.after (system.removeFile path)
  | .removeTree path => system.after (system.removeTree path)

variable {system grown : FileSystem} {path target : String} {content : ByteArray}

/-- A file is written where the path leads when it is to be filled, and no directory is there. -/
theorem put_of_write (written : system.write path content = .ok grown) :
    ∃ place, system.resolve .fill path = .ok place ∧ system.isDirectoryAt place = false ∧
      grown = system.put place (.file content) := by
  cases resolved : system.resolve .fill path with
  | error cause => simp [write, resolved, bind, Except.bind] at written
  | ok place =>
    simp only [write, resolved, bind, Except.bind] at written
    split at written
    · cases written
    · rename_i free
      exact ⟨place, rfl, Bool.not_eq_true _ ▸ free, (Except.ok.inj written).symm⟩

/-- Where a file can be written nothing stands or a file. -/
theorem isFile_of_fill {place : Location} (resolved : system.resolve .fill path = .ok place)
    (free : system.isDirectoryAt place = false) (former : Node)
    (stands : system.node? place = some former) : former.isFile := by
  have noLink := noLink_of_follow (follow_of_resolve resolved) stands
  rw [isDirectoryAt, stands] at free
  cases former with
  | file => rfl
  | directory => cases free
  | link => cases noLink

/-- A file that is written leaves everything else where it was. -/
theorem grows_of_write {after : FileSystem}
    (written : system.write path content = .ok after) :
    system.Grows after ∧ after.workingDirectory = system.workingDirectory := by
  obtain ⟨place, resolved, free, rfl⟩ := put_of_write written
  exact ⟨grows_put_file (isFile_of_fill resolved free), rfl⟩

/-- A link is put where the path leads as an entry. -/
theorem put_of_link (linked : system.link path target = .ok grown) :
    ∃ place, system.resolve .entry path = .ok place ∧ grown = system.put place (.link target) := by
  rw [link] at linked
  split at linked
  · cases linked
  · cases resolved : system.resolve .entry path with
    | error cause => simp [resolved, bind, Except.bind] at linked
    | ok place =>
      simp only [resolved, bind, Except.bind] at linked
      split at linked
      · cases linked
      · split at linked
        · cases linked
        · exact ⟨place, rfl, (Except.ok.inj linked).symm⟩

/-- A directory is put, without entries, where the path leads as an entry. -/
theorem put_of_createDirectory (created : system.createDirectory path = .ok grown) :
    ∃ place, system.resolve .entry path = .ok place ∧ grown = system.put place (.directory []) := by
  cases resolved : system.resolve .entry path with
  | error cause => simp [createDirectory, resolved, bind, Except.bind] at created
  | ok place =>
    simp only [createDirectory, resolved, bind, Except.bind] at created
    split at created
    · cases created
    · exact ⟨place, rfl, (Except.ok.inj created).symm⟩

/-- Removing a file takes away what stands somewhere. -/
theorem takeAway_of_removeFile (removed : system.removeFile path = .ok grown) :
    ∃ place, grown = system.takeAway place := by
  cases resolved : system.resolve .entry path with
  | error cause => simp [removeFile, resolved, bind, Except.bind] at removed
  | ok place =>
    simp only [removeFile, resolved, bind, Except.bind] at removed
    split at removed
    · cases removed
    · cases removed
    · split at removed
      · cases removed
      · exact ⟨place, (Except.ok.inj removed).symm⟩

/-- Removing anything takes away what stands somewhere. -/
theorem takeAway_of_removeTree (removed : system.removeTree path = .ok grown) :
    ∃ place, grown = system.takeAway place := by
  cases resolved : system.resolve .entry path with
  | error cause => simp [removeTree, resolved, bind, Except.bind] at removed
  | ok place =>
    simp only [removeTree, resolved, bind, Except.bind] at removed
    split at removed
    · cases removed
    · exact ⟨place, (Except.ok.inj removed).symm⟩
    · exact takeAway_of_removeFile removed

section Directories

variable {Kept : FileSystem → Prop}
  (step : ∀ {system grown : FileSystem} {path : String}, Kept system →
    system.createDirectory path = .ok grown → Kept grown)

include step

/-- What creating one directory keeps, creating one with those around it keeps, if creating those
does. -/
theorem establish_keeps {around : FileSystem → FileSystem × Except AccessError Unit}
    (aroundKeeps : ∀ system, Kept system → Kept (around system).1) (holds : Kept system) :
    Kept (system.establish path around).1 := by
  rw [establish]
  split
  · have aroundHolds := aroundKeeps system holds
    split
    · rename_i grown made
      rw [made] at aroundHolds
      cases created : grown.createDirectory path with
      | ok further => exact step aroundHolds created
      | error cause => exact aroundHolds
    · rename_i grown cause made
      rwa [made] at aroundHolds
  · cases created : system.createDirectory path with
    | ok grown => exact step holds created
    | error cause => exact holds

/-- What creating one directory keeps, creating those along a path keeps. -/
theorem createThrough_keeps (pieces : List (List Char)) (holds : Kept system) :
    Kept (system.createThrough pieces).1 := by
  induction pieces generalizing system with
  | nil => exact holds
  | cons piece around inductionHypothesis =>
    rw [createThrough]
    split
    · exact inductionHypothesis holds
    · exact establish_keeps step (fun _ => inductionHypothesis) holds

theorem createParents_keeps (path : String) (holds : Kept system) :
    Kept (system.createParents path).1 :=
  createThrough_keeps step _ holds

theorem createDirectories_keeps (path : String) (holds : Kept system) :
    Kept (system.createDirectories path).1 := by
  rw [createDirectories]
  split
  · exact holds
  · exact establish_keeps step (fun _ => createParents_keeps step path) holds

end Directories

/-- Creating a directory adds nothing else. -/
theorem AddsDirectories.createDirectory {before : FileSystem}
    (adds : before.AddsDirectories system) (created : system.createDirectory path = .ok grown) :
    before.AddsDirectories grown := by
  obtain ⟨place, _, rfl⟩ := put_of_createDirectory created
  exact adds.trans (addsDirectories_put system place)

/-- Creating the directories around a path adds directories only. -/
theorem addsDirectories_createParents (system : FileSystem) (path : String) :
    system.AddsDirectories (system.createParents path).1 :=
  createParents_keeps .createDirectory path (.refl system)

/-- Where a change puts a file or a link. -/
def fills? (system : FileSystem) : Change → Option Location
  | .write path _ => (system.resolve .fill path).toOption
  | .link path _ => (system.resolve .entry path).toOption
  | .createDirectories _ | .removeFile _ | .removeTree _ => none

/-- What a change can come to. -/
inductive Changed (system : FileSystem) (change : Change) : FileSystem → Prop
  | failed : Changed system change system
  | put {place : Location} {node : Node} (fills : system.fills? change = some place)
      (bare : node.entries = []) : Changed system change (system.put place node)
  | takenAway (place : Location) : Changed system change (system.takeAway place)
  | created (path : String) : Changed system change (system.createDirectories path).1

/-- Something that is tried fails or comes to what its success does. -/
theorem changed_after {change : Change} {outcome : Except AccessError FileSystem}
    (changed : ∀ grown, outcome = .ok grown → system.Changed change grown) :
    system.Changed change (system.after outcome) := by
  cases outcome with
  | error cause => exact .failed
  | ok grown => exact changed grown rfl

/-- Every change comes to one of these. -/
theorem changed_change (change : Change) : system.Changed change (system.change change) := by
  cases change with
  | write path content =>
    refine changed_after fun grown written => ?_
    obtain ⟨place, resolved, _, rfl⟩ := put_of_write written
    exact .put (by rw [fills?, resolved, Except.toOption]) rfl
  | createDirectories path => exact .created path
  | link path target =>
    refine changed_after fun grown linked => ?_
    obtain ⟨place, resolved, rfl⟩ := put_of_link linked
    exact .put (by rw [fills?, resolved, Except.toOption]) rfl
  | removeFile path =>
    refine changed_after fun grown removed => ?_
    obtain ⟨place, rfl⟩ := takeAway_of_removeFile removed
    exact .takenAway place
  | removeTree path =>
    refine changed_after fun grown removed => ?_
    obtain ⟨place, rfl⟩ := takeAway_of_removeTree removed
    exact .takenAway place

/-- After a change nothing is new but directories and what is in the place that it fills. -/
theorem new_of_change {change : Change} {location : Location} {found : Node}
    (stands : (system.change change).node? location = some found) :
    found.isDirectory ∨ system.node? location = some found ∨
      system.fills? change = some location := by
  have changed : system.Changed change (system.change change) := changed_change change
  generalize system.change change = outcome at *
  cases changed with
  | failed => exact .inr (.inl stands)
  | put fills bare =>
    refine (new_of_put bare stands).imp_right (.imp_right ?_)
    rintro ⟨rfl, _⟩
    exact fills
  | takenAway place =>
    exact (addsDirectories_takeAway system place location found stands).imp_right .inl
  | created path =>
    have adds : system.AddsDirectories (system.createDirectories path).1 :=
      createDirectories_keeps AddsDirectories.createDirectory path (.refl system)
    exact (adds location found stands).imp_right .inl

section Standing

variable {location : Location} (reachable : location.Reachable)
  (usable : refusalOf? location.path = none)

include reachable usable

/-- The path of a location is resolved to it if something other than a link stands there. -/
theorem resolve_path {aim : Aim} {node : Node} (stands : system.node? location = some node)
    (noLink : node.isLink = false) : system.resolve aim location.path = .ok location := by
  by_cases follows : aim = .entry
  · subst follows
    have arrives : system.follow .use location.path = .ok location :=
      follow_path (by decide) reachable stands noLink
    obtain ⟨entry, toEntry, _⟩ := entry_of_follow arrives
    have same := place_of_path_of_stands reachable.proper stands noLink toEntry
    exact resolve_of_follow usable (same ▸ toEntry)
  · exact resolve_of_follow usable (follow_path follows reachable stands noLink)

/-- A file is read by the path of its location. -/
theorem content_path (stands : system.node? location = some (.file content)) :
    system.content location.path = .ok content := by
  have resolved : system.resolve .use location.path = .ok location :=
    resolve_path reachable usable stands rfl
  simp [FileSystem.content, resolved, contentAt, stands, bind, Except.bind]

/-- A directory is one by the path of its location. -/
theorem isDirectory_path (inside : system.isDirectoryAt location) :
    system.isDirectory location.path := by
  obtain ⟨node, stands, isDirectory⟩ := Option.any_eq_true _ _ |>.mp inside
  have noLink : node.isLink = false := by
    obtain ⟨entries, rfl⟩ := Node.eq_directory isDirectory
    rfl
  simp [FileSystem.isDirectory, resolve_path reachable usable stands noLink, inside]

end Standing

/-- A file is written under a new name in a directory. -/
theorem write_of_absent {location : Location} {name : String}
    (reachable : Location.Reachable (location ++ [name]))
    (usable : refusalOf? (Location.path (location ++ [name])) = none)
    (inside : system.isDirectoryAt location) (absent : system.node? (location ++ [name]) = none)
    (content : ByteArray) :
    system.write (Location.path (location ++ [name])) content =
      .ok (system.put (location ++ [name]) (.file content)) := by
  have resolved := resolve_of_follow usable (follow_path_of_absent reachable inside absent)
  simp [write, resolved, isDirectoryAt, absent, bind, Except.bind]

/-- What is no directory is taken away where its path leads. -/
theorem removeFile_of_present {location : Location} {name : String} {node : Node}
    (reachable : Location.Reachable (location ++ [name]))
    (usable : refusalOf? (Location.path (location ++ [name])) = none)
    (named : endsInSlash (Location.path (location ++ [name])) = false)
    (present : system.node? (location ++ [name]) = some node) (leaf : node.isDirectory = false) :
    system.removeFile (Location.path (location ++ [name])) =
      .ok (system.takeAway (location ++ [name])) := by
  have resolved := resolve_of_follow usable (follow_path_of_present reachable present)
  cases node with
  | directory => cases leaf
  | file | link => simp [removeFile, resolved, present, named, bind, Except.bind]

namespace Proper

variable (proper : system.Proper)

include proper

theorem createDirectory (created : system.createDirectory path = .ok grown) : grown.Proper := by
  obtain ⟨place, resolved, rfl⟩ := put_of_createDirectory created
  exact proper.put (proper_of_follow proper (follow_of_resolve resolved)) rfl

theorem createParents (path : String) : (system.createParents path).1.Proper :=
  createParents_keeps Proper.createDirectory path proper

theorem write (written : system.write path content = .ok grown) : grown.Proper := by
  obtain ⟨place, resolved, _, rfl⟩ := put_of_write written
  exact proper.put (proper_of_follow proper (follow_of_resolve resolved)) rfl

/-- A change fills a proper place. -/
theorem of_fills {change : Change} {place : Location} (fills : system.fills? change = some place) :
    place.Proper := by
  have resolved {aim : Aim} {path : String}
      (leads : (system.resolve aim path).toOption = some place) : place.Proper := by
    cases arrives : system.resolve aim path with
    | error cause => simp [arrives, Except.toOption] at leads
    | ok other =>
      have same : other = place := by simpa [arrives, Except.toOption] using leads
      exact same ▸ proper_of_follow proper (follow_of_resolve arrives)
  cases change with
  | write path content | link path target => exact resolved fills
  | createDirectories path | removeFile path | removeTree path => cases fills

/-- Changes keep a file system proper. -/
theorem change (change : Change) : (system.change change).Proper := by
  have changed : system.Changed change (system.change change) := changed_change change
  generalize system.change change = outcome at *
  cases changed with
  | failed => exact proper
  | put fills bare => exact proper.put (proper.of_fills fills) bare
  | takenAway place => exact proper.takeAway place
  | created path => exact createDirectories_keeps Proper.createDirectory path proper

end Proper

end FileSystem

end Menus
