import Menus.Text.Comparison

/-!
# Files, directories and links

What a file system holds is a tree. Directories branch by the names of their entries; files and
links are leaves. A place in the tree is known by the names on the way to it, so nothing stands
below what is no directory, and `mem_locations_of_find?` says that only finitely many places hold
anything.

Owners, permissions and times are left out. Names and paths are texts, so names that are not UTF-8 are
left out too.
-/

namespace Menus

/-- Where something stands: the names of the directories around it, outermost first, and then its
own name. The root has no names. -/
abbrev Location := List String

/-- The absolute path that leads to a location by names alone. -/
def Location.path (location : Location) : String :=
  "/" ++ "/".intercalate location

/-- One location comes before another: the first different names decide, and a directory comes
before what is in it. -/
def Location.precedes : Location → Location → Bool
  | _, [] => false
  | [], _ :: _ => true
  | name :: first, other :: second =>
    if name = other then Location.precedes first second
    else Text.precedes name.toList other.toList

/-- What can stand at a location. -/
inductive Node where
  | file (content : ByteArray)
  /-- No two entries have the same name. -/
  | directory (entries : List (String × Node))
  /-- Stands for what the target leads to, seen from the directory the link is in. -/
  | link (target : String)

namespace Node

/-- The entries of a directory. Nothing else has any. -/
def entries : Node → List (String × Node)
  | directory entries => entries
  | _ => []

/-- The node is a directory. -/
def isDirectory : Node → Bool
  | directory _ => true
  | _ => false

/-- The node is a file. -/
def isFile : Node → Bool
  | file _ => true
  | _ => false

/-- What stands at a location below a node. -/
def find? : Location → Node → Option Node
  | [], node => some node
  | name :: rest, node =>
    match node.entries.lookup name with
    | some entry => find? rest entry
    | none => none

/-- Entries with something else under a name, or with nothing there. -/
def replaceEntry (entries : List (String × Node)) (name : String) (new : Option Node) :
    List (String × Node) :=
  (new.toList.map fun node => (name, node)) ++ entries.filter fun entry => entry.1 ≠ name

/-- The node with something else at a location below it, or with nothing there. The directories
around the location have to be there; otherwise nothing changes. -/
def replace (new : Option Node) : Location → Node → Node
  | name :: rest, directory entries =>
    if rest.isEmpty then directory (replaceEntry entries name new)
    else
      match entries.lookup name with
      | some inner => directory (replaceEntry entries name (some (replace new rest inner)))
      | none => directory entries
  | _, node => node

mutual

/-- The locations below a node at which something stands. A directory comes before what is in
it. -/
def locations : Node → List Location
  | directory entries => locationsIn entries
  | _ => []

/-- The locations of entries and of what stands below them. -/
def locationsIn : List (String × Node) → List Location
  | [] => []
  | (name, node) :: rest => ([name] :: node.locations.map (name :: ·)) ++ locationsIn rest

end

/-- The locations below an entry are among those of all entries. -/
theorem mem_locationsIn {entries : List (String × Node)} {name : String} {entry : Node}
    (standing : entries.lookup name = some entry) (location : Location)
    (inside : location = [] ∨ location ∈ entry.locations) :
    name :: location ∈ locationsIn entries := by
  induction entries with
  | nil => simp at standing
  | cons first rest inductionHypothesis =>
    obtain ⟨other, node⟩ := first
    rw [locationsIn]
    by_cases same : name = other
    · subst same
      simp only [List.lookup_cons, beq_self_eq_true, Option.some.injEq] at standing
      subst standing
      rcases inside with own | deeper
      · simp [own]
      · exact List.mem_append_left _ (List.mem_cons_of_mem _ (List.mem_map_of_mem deeper))
    · have further : rest.lookup name = some entry := by
        simpa [List.lookup_cons, beq_eq_false_iff_ne.mpr same] using standing
      exact List.mem_append_right _ (inductionHypothesis further)

/-- What stands below a node stands at one of its locations. -/
theorem mem_locations_of_find? {location : Location} {node found : Node}
    (standing : find? location node = some found) :
    location = [] ∨ location ∈ node.locations := by
  induction location generalizing node with
  | nil => exact .inl rfl
  | cons name rest inductionHypothesis =>
    right
    rw [find?] at standing
    cases entered : node.entries.lookup name with
    | none => simp [entered] at standing
    | some entry =>
      simp only [entered] at standing
      cases node with
      | directory entries =>
        rw [locations]
        exact mem_locationsIn entered rest (inductionHypothesis standing)
      | file content => simp [entries] at entered
      | link target => simp [entries] at entered

end Node

end Menus
