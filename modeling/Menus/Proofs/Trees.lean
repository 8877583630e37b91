import Menus.FileSystem

/-!
# What stands in a file system after a change

Everything that changes a file system puts a node at one place or takes away what stands there. The
nodes at other places stay, except that the directories around the place have other entries: so what
can be found afterwards was there before, or is a directory that was one before, or is part of what
was put. Nothing else is said below about how a tree is rebuilt.

A file system is proper if everything in it stands under names that a path can spell. Changes keep
it so, as long as they put things at proper places.
-/

namespace Menus

namespace Node

/-- The node is a link. -/
def isLink : Node → Bool
  | link _ => true
  | _ => false

/-- The nodes are of one kind, and as links lead to one target. Contents and entries may differ. -/
def Alike : Node → Node → Prop
  | file _, file _ => True
  | directory _, directory _ => True
  | link target, link other => target = other
  | _, _ => False

theorem Alike.refl (node : Node) : node.Alike node := by
  cases node <;> simp [Alike]

theorem Alike.isLink_eq {node other : Node} (alike : node.Alike other) :
    node.isLink = other.isLink := by
  cases node <;> cases other <;> first | rfl | exact alike.elim

theorem Alike.isDirectory_eq {node other : Node} (alike : node.Alike other) :
    node.isDirectory = other.isDirectory := by
  cases node <;> cases other <;> first | rfl | exact alike.elim

/-- A directory is its entries. -/
theorem eq_directory {node : Node} (isDirectory : node.isDirectory) :
    ∃ entries, node = directory entries := by
  cases node with
  | directory entries => exact ⟨entries, rfl⟩
  | file => cases isDirectory
  | link => cases isDirectory

/-- Only a directory has entries. -/
theorem isDirectory_of_lookup {node entry : Node} {name : String}
    (entered : node.entries.lookup name = some entry) : node.isDirectory := by
  cases node with
  | directory => rfl
  | file => simp [entries] at entered
  | link => simp [entries] at entered

/-- Finding goes step by step. -/
theorem find?_append (front rest : Location) (node : Node) :
    find? (front ++ rest) node = (find? front node).bind (find? rest) := by
  induction front generalizing node with
  | nil => rfl
  | cons name front inductionHypothesis =>
    rw [List.cons_append, find?, find?]
    cases node.entries.lookup name with
    | none => rfl
    | some entry => exact inductionHypothesis entry

/-- What stands under a name in what stands at a place. -/
theorem find?_concat {location : Location} {node found : Node}
    (standing : find? location node = some found) (name : String) :
    find? (location ++ [name]) node = found.entries.lookup name := by
  rw [find?_append, standing, Option.bind_some, find?]
  cases found.entries.lookup name <;> rfl

/-- Nothing stands below a node without entries. -/
theorem find?_of_noEntries {location : Location} {node found : Node} (bare : node.entries = [])
    (standing : find? location node = some found) : location = [] ∧ found = node := by
  cases location with
  | nil => exact ⟨rfl, (Option.some.inj standing).symm⟩
  | cons name rest => simp [find?, bare] at standing

/-- Above a place at which something stands there are only directories. -/
theorem isDirectory_of_below {front rest : Location} {node found : Node} (below : rest ≠ [])
    (standing : find? (front ++ rest) node = some found) :
    ∃ directory, find? front node = some directory ∧ directory.isDirectory := by
  rw [find?_append] at standing
  obtain ⟨directory, atFront, behind⟩ := Option.bind_eq_some_iff.mp standing
  refine ⟨directory, atFront, ?_⟩
  cases rest with
  | nil => exact absurd rfl below
  | cons name rest =>
    rw [find?] at behind
    cases entered : directory.entries.lookup name with
    | none => simp [entered] at behind
    | some entry => exact isDirectory_of_lookup entered

/-- Replacing an entry changes what stands under its name only. -/
theorem lookup_replaceEntry (entries : List (String × Node)) (name other : String)
    (new : Option Node) :
    (replaceEntry entries name new).lookup other =
      if other = name then new else entries.lookup other := by
  have others : (entries.filter fun entry => entry.1 ≠ name).lookup other =
      if other = name then none else entries.lookup other := by
    induction entries with
    | nil => simp
    | cons entry rest inductionHypothesis =>
      obtain ⟨first, node⟩ := entry
      by_cases same : first = name
      · rw [List.filter_cons_of_neg (by simp [same]), inductionHypothesis]
        by_cases asked : other = name
        · simp [asked]
        · simp [asked, List.lookup_cons, same, beq_eq_false_iff_ne.mpr asked]
      · rw [List.filter_cons_of_pos (by simp [same]), List.lookup_cons, inductionHypothesis]
        by_cases asked : other = first
        · subst asked
          simp [same]
        · simp [List.lookup_cons, beq_eq_false_iff_ne.mpr asked]
  cases new with
  | none => simpa [replaceEntry] using others
  | some node =>
    rw [replaceEntry, Option.toList_some, List.map_cons, List.map_nil, List.singleton_append,
      List.lookup_cons, others]
    by_cases asked : other = name
    · simp [asked]
    · simp [asked, beq_eq_false_iff_ne.mpr asked]

/-- What can stand at a location once something else has been put at a place, or what stood there has
been taken away. -/
inductive Replaced (new : Option Node) (place : Location) (node : Node) : Location → Node → Prop
  /-- It is part of what was put. -/
  | added {below : Location} {added found : Node} (put : new = some added)
      (inside : find? below added = some found) : Replaced new place node (place ++ below) found
  /-- It was there before. -/
  | kept {location : Location} {found : Node} (before : find? location node = some found) :
      Replaced new place node location found
  /-- It is a directory around the place. -/
  | around {location : Location} {old found : Node} (before : find? location node = some old)
      (wasDirectory : old.isDirectory) (isDirectory : found.isDirectory) :
      Replaced new place node location found

/-- What stands in an entry stands in the directory. -/
theorem Replaced.under {new : Option Node} {place location : Location} {inner found : Node}
    {entries : List (String × Node)} {name : String} (entered : entries.lookup name = some inner)
    (replaced : Replaced new place inner location found) :
    Replaced new (name :: place) (directory entries) (name :: location) found := by
  have further (location : Location) :
      find? (name :: location) (directory entries) = find? location inner := by
    rw [find?, Node.entries, entered]
  cases replaced with
  | added put inside => exact .added put inside
  | kept before => exact .kept (further _ ▸ before)
  | around before wasDirectory isDirectory =>
    exact .around (further _ ▸ before) wasDirectory isDirectory

/-- What can be found in a directory with an entry replaced. -/
theorem find?_replaceEntry (entries : List (String × Node)) (name asked : String)
    (new : Option Node) (further : Location) :
    find? (asked :: further) (directory (replaceEntry entries name new)) =
      if asked = name then new.bind (find? further)
      else find? (asked :: further) (directory entries) := by
  simp only [find?, Node.entries, lookup_replaceEntry]
  by_cases same : asked = name
  · cases new <;> simp [same]
  · simp [same]

/-- After a replacement there is what was put, what was there, and the directories around the
place. -/
theorem replaced_of_find? {new : Option Node} {place location : Location} {node found : Node}
    (standing : find? location (replace new place node) = some found) :
    Replaced new place node location found := by
  fun_induction replace new place node generalizing location with
  | case1 name rest entries last =>
    rw [List.isEmpty_iff] at last
    subst last
    cases location with
    | nil => exact .around rfl rfl (Option.some.inj standing ▸ rfl)
    | cons asked further =>
      rw [find?_replaceEntry] at standing
      split at standing
      · rename_i same
        subst same
        obtain ⟨added, put, inside⟩ := Option.bind_eq_some_iff.mp standing
        exact .added put inside
      · exact .kept standing
  | case2 name rest entries more inner entered inductionHypothesis =>
    cases location with
    | nil => exact .around rfl rfl (Option.some.inj standing ▸ rfl)
    | cons asked further =>
      rw [find?_replaceEntry] at standing
      split at standing
      · rename_i same
        subst same
        exact .under entered (inductionHypothesis standing)
      · exact .kept standing
  | case3 | case4 => exact .kept standing

/-- Where nothing, or a node of the same kind without entries, gives way to a new node, everything
else stays where it is. -/
theorem find?_replace_some {new : Node} {place location : Location} {node old : Node}
    (room : ∀ former, find? place node = some former → former.Alike new ∧ former.entries = [])
    (standing : find? location node = some old) :
    ∃ found, find? location (replace (some new) place node) = some found ∧ old.Alike found := by
  fun_induction replace (some new) place node generalizing location with
  | case1 name rest entries last =>
    rw [List.isEmpty_iff] at last
    subst last
    cases location with
    | nil => exact ⟨_, rfl, Option.some.inj standing ▸ trivial⟩
    | cons asked further =>
      rw [find?_replaceEntry]
      split
      · rename_i same
        subst same
        rw [show asked :: further = [asked] ++ further from rfl, find?_append] at standing
        obtain ⟨former, found, below⟩ := Option.bind_eq_some_iff.mp standing
        have ⟨alike, bare⟩ := room former found
        obtain ⟨here, same⟩ := find?_of_noEntries bare below
        subst here same
        exact ⟨new, rfl, alike⟩
      · exact ⟨old, standing, .refl old⟩
  | case2 name rest entries more inner entered inductionHypothesis =>
    cases location with
    | nil => exact ⟨_, rfl, Option.some.inj standing ▸ trivial⟩
    | cons asked further =>
      have enters (location : Location) :
          find? (name :: location) (directory entries) = find? location inner := by
        rw [find?, Node.entries, entered]
      rw [find?_replaceEntry]
      split
      · rename_i same
        subst same
        rw [enters] at standing
        exact inductionHypothesis (fun former found => room former ((enters rest).trans found)) standing
      · exact ⟨old, standing, .refl old⟩
  | case3 | case4 => exact ⟨old, standing, .refl old⟩

end Node

/-- A text under which a directory can have an entry: one that a path spells as a single name. -/
structure IsName (text : String) : Prop where
  nonempty : text ≠ ""
  notHere : text ≠ "."
  notUp : text ≠ ".."
  noSlash : '/' ∉ text.toList

instance (text : String) : Decidable (IsName text) :=
  decidable_of_iff (text ≠ "" ∧ text ≠ "." ∧ text ≠ ".." ∧ '/' ∉ text.toList)
    ⟨fun ⟨nonempty, notHere, notUp, noSlash⟩ => ⟨nonempty, notHere, notUp, noSlash⟩,
      fun ⟨nonempty, notHere, notUp, noSlash⟩ => ⟨nonempty, notHere, notUp, noSlash⟩⟩

/-- The location is made of names. -/
def Location.Proper (location : Location) : Prop :=
  ∀ name ∈ location, IsName name

instance (location : Location) : Decidable location.Proper :=
  inferInstanceAs (Decidable (∀ name ∈ location, IsName name))

namespace FileSystem

/-- Everything stands at a proper location. -/
def Proper (system : FileSystem) : Prop :=
  ∀ (location : Location) (node : Node), system.node? location = some node → location.Proper

/-- What stands in the first file system stands in the second, though contents and entries may be
others. -/
def Grows (before after : FileSystem) : Prop :=
  ∀ (location : Location) (node : Node), before.node? location = some node →
    ∃ found, after.node? location = some found ∧ node.Alike found

/-- Directories apart, what stands in the second file system stood in the first. -/
def AddsDirectories (before after : FileSystem) : Prop :=
  ∀ (location : Location) (node : Node), after.node? location = some node →
    node.isDirectory ∨ before.node? location = some node

variable {system : FileSystem} {place location : Location} {node found : Node}

/-- What holds of the top and of every listed location holds wherever something stands. -/
theorem holds_of_locations {property : Location → Prop} (top : property [])
    (all : ∀ location ∈ system.locations, property location)
    (stands : system.node? location = some node) : property location := by
  rcases Node.mem_locations_of_find? stands with isTop | below
  · exact isTop ▸ top
  · exact all location below

/-- Whether a file system is proper can be seen from its locations. -/
theorem proper_of_locations (all : ∀ location ∈ system.locations, Location.Proper location) :
    system.Proper :=
  fun _ _ stands => holds_of_locations (fun _ member => absurd member List.not_mem_nil) all stands

/-- The tree is a directory before and after a replacement. -/
theorem root_replace (system : FileSystem) (new : Option Node) (place : Location) :
    Node.directory (system.root.replace new place).entries = system.root.replace new place := by
  cases place with
  | nil => rfl
  | cons name rest =>
    rw [root, Node.replace]
    split
    · rfl
    · split <;> rfl

/-- What can be found after something has been put at a place. -/
theorem replaced_of_put (standing : (system.put place node).node? location = some found) :
    Node.Replaced (some node) place system.root location found :=
  Node.replaced_of_find? (root_replace system (some node) place ▸ standing)

/-- What can be found after something has been taken away from a place. -/
theorem replaced_of_takeAway (standing : (system.takeAway place).node? location = some found) :
    Node.Replaced none place system.root location found :=
  Node.replaced_of_find? (root_replace system none place ▸ standing)

/-- After taking something away there is nothing new but directories with fewer entries. -/
theorem addsDirectories_takeAway (system : FileSystem) (place : Location) :
    system.AddsDirectories (system.takeAway place) := by
  intro location found standing
  cases replaced_of_takeAway standing with
  | added put inside => cases put
  | kept before => exact .inr before
  | around before wasDirectory isDirectory => exact .inl isDirectory

/-- When something without entries is put at a place, that is all that is new, directories apart. -/
theorem new_of_put (bare : node.entries = [])
    (standing : (system.put place node).node? location = some found) :
    found.isDirectory ∨ system.node? location = some found ∨ location = place ∧ found = node := by
  cases replaced_of_put standing with
  | added put inside =>
    have ⟨here, same⟩ := Node.find?_of_noEntries bare (Option.some.inj put ▸ inside)
    rw [here, List.append_nil]
    exact .inr (.inr ⟨rfl, same⟩)
  | kept before => exact .inr (.inl before)
  | around before wasDirectory isDirectory => exact .inl isDirectory

/-- Putting an empty directory somewhere adds directories only. -/
theorem addsDirectories_put (system : FileSystem) (place : Location) :
    system.AddsDirectories (system.put place (.directory [])) := by
  intro location found standing
  rcases new_of_put rfl standing with isDirectory | stood | ⟨_, same⟩
  · exact .inl isDirectory
  · exact .inr stood
  · exact .inl (same ▸ rfl)

theorem AddsDirectories.refl (system : FileSystem) : system.AddsDirectories system :=
  fun _ _ standing => .inr standing

theorem AddsDirectories.trans {first second third : FileSystem}
    (adds : first.AddsDirectories second) (addsMore : second.AddsDirectories third) :
    first.AddsDirectories third := by
  intro location node standing
  rcases addsMore location node standing with isDirectory | before
  · exact .inl isDirectory
  · exact adds location node before

/-- Where no link stood there is none once directories were added. -/
theorem AddsDirectories.noLink {before after : FileSystem} (adds : before.AddsDirectories after)
    {target : String} (noLink : before.node? location ≠ some (.link target)) :
    after.node? location ≠ some (.link target) := by
  intro isLink
  rcases adds location _ isLink with isDirectory | stood
  · cases isDirectory
  · exact noLink stood

/-- A file put where a file or nothing is leaves everything else where it was. -/
theorem grows_put_file {content : ByteArray}
    (room : ∀ former, system.node? place = some former → former.isFile) :
    system.Grows (system.put place (.file content)) := by
  intro location node standing
  have roomy (former : Node) (found : system.root.find? place = some former) :
      former.Alike (.file content) ∧ former.entries = [] := by
    have isFile := room former found
    cases former with
    | file => exact ⟨trivial, rfl⟩
    | directory => cases isFile
    | link => cases isFile
  obtain ⟨found, after, alike⟩ := Node.find?_replace_some roomy standing
  exact ⟨found, by rwa [node?, root, put, root_replace], alike⟩

/-- A file system stays proper when something without entries is put at a proper place. -/
theorem Proper.put (proper : system.Proper) (properPlace : place.Proper)
    (bare : node.entries = []) : (system.put place node).Proper := by
  intro location found standing
  cases replaced_of_put standing with
  | added put inside =>
    have ⟨here, _⟩ := Node.find?_of_noEntries bare (Option.some.inj put ▸ inside)
    rwa [here, List.append_nil]
  | kept before => exact proper _ _ before
  | around before wasDirectory isDirectory => exact proper _ _ before

/-- A file system stays proper when something is taken away. -/
theorem Proper.takeAway (proper : system.Proper) (place : Location) :
    (system.takeAway place).Proper := by
  intro location found standing
  cases replaced_of_takeAway standing with
  | added put inside => cases put
  | kept before => exact proper _ _ before
  | around before wasDirectory isDirectory => exact proper _ _ before

end FileSystem

end Menus
