import Menus.Proofs.Trees

/-!
# Walks that arrive

A walk that arrives somewhere takes one step for each piece of its path, and `Walks` lists the steps
it can take. What is said about walks below is proved by induction on these steps: where something
used stands, what walking with another aim would give, where a plain path leads, and that a walk
stays the same in a file system that has grown.
-/

namespace Menus

namespace FileSystem

/-- The piece is entered as a name. -/
structure IsStep (piece : String) : Prop where
  nonempty : piece ≠ ""
  notHere : piece ≠ "."
  notUp : piece ≠ ".."
  short : piece.utf8ByteSize ≤ nameLimit

/-- A walk along pieces of a path, from where a trail has led to a location. -/
inductive Walks (system : FileSystem) (aim : Aim) : Nat → Trail → List String → Location → Prop
  /-- No piece is left. -/
  | arrived (links : Nat) (trail : Trail) : Walks system aim links trail [] trail.location
  /-- A piece leads nowhere else. -/
  | idle {links : Nat} {trail : Trail} {piece : String} {rest : List String} {place : Location}
      (inside : (system.reached trail).isDirectory) (idle : piece = "" ∨ piece = ".")
      (onward : Walks system aim links trail rest place) :
      Walks system aim links trail (piece :: rest) place
  /-- A piece leads out of the directory. -/
  | out {links : Nat} {trail : Trail} {rest : List String} {place : Location}
      (inside : (system.reached trail).isDirectory)
      (onward : Walks system aim links trail.tail rest place) :
      Walks system aim links trail (".." :: rest) place
  /-- Nothing stands under the last name. -/
  | absent {links : Nat} {trail : Trail} {piece : String} {rest : List String}
      (inside : (system.reached trail).isDirectory) (step : IsStep piece)
      (missing : (system.reached trail).entries.lookup piece = none)
      (last : rest.all String.isEmpty) (allowed : aim = .entry ∨ aim = .fill ∧ rest = []) :
      Walks system aim links trail (piece :: rest) (trail.location ++ [piece])
  /-- What stands under the last name is taken itself. -/
  | taken {links : Nat} {trail : Trail} {piece : String} {rest : List String} {node : Node}
      (step : IsStep piece) (standing : (system.reached trail).entries.lookup piece = some node)
      (last : rest.all String.isEmpty) (asEntry : aim = .entry) :
      Walks system aim links trail (piece :: rest) (trail.location ++ [piece])
  /-- A link stands under the name and is followed. -/
  | linked {links : Nat} {trail : Trail} {piece target : String} {rest : List String}
      {place : Location} (step : IsStep piece)
      (standing : (system.reached trail).entries.lookup piece = some (.link target))
      (further : ¬(rest.all String.isEmpty ∧ aim = .entry))
      (onward : Walks system aim links (startOf trail target) (piecesOf target ++ rest) place) :
      Walks system aim (links + 1) trail (piece :: rest) place
  /-- What stands under the name is entered. -/
  | entered {links : Nat} {trail : Trail} {piece : String} {rest : List String} {node : Node}
      {place : Location} (step : IsStep piece)
      (standing : (system.reached trail).entries.lookup piece = some node)
      (noLink : node.isLink = false) (further : ¬(rest.all String.isEmpty ∧ aim = .entry))
      (onward : Walks system aim links ((piece, node) :: trail) rest place) :
      Walks system aim links trail (piece :: rest) place

variable {system : FileSystem} {aim : Aim} {links : Nat} {trail : Trail} {pieces : List String}
  {place : Location}

/-- A walk that succeeds takes these steps. -/
theorem walks_of_walk (arrives : system.walk aim links trail pieces = .ok place) :
    system.Walks aim links trail pieces place := by
  fun_induction walk system aim links trail pieces with
  | case1 links trail =>
    cases arrives
    exact .arrived links trail
  | case2 links trail piece rest entries reached idle inductionHypothesis =>
    exact .idle (reached ▸ rfl) idle (inductionHypothesis arrives)
  | case3 links trail rest entries reached _ inductionHypothesis =>
    exact .out (reached ▸ rfl) (inductionHypothesis arrives)
  | case7 links trail piece rest entries reached named notUp short atEnd missing found free =>
    cases arrives
    rw [not_or] at named
    have step : IsStep piece := ⟨named.1, named.2, notUp, Nat.not_lt.mp short⟩
    simp only [Bool.or_eq_true, not_or, Bool.not_eq_true, Bool.not_eq_false', atEnd,
      decide_eq_false_iff_not] at found
    refine .absent (reached ▸ rfl) step (reached ▸ missing) found.1 ?_
    cases aim with
    | use => exact absurd rfl found.2
    | fill => exact .inr ⟨rfl, by simpa using free⟩
    | entry => exact .inl rfl
  | case8 links trail piece rest entries reached named notUp short atEnd node standing taken =>
    cases arrives
    rw [not_or] at named
    have inside : (system.reached trail).entries.lookup piece = some node := reached ▸ standing
    exact .taken ⟨named.1, named.2, notUp, Nat.not_lt.mp short⟩ inside taken.1 taken.2
  | case10 trail piece rest entries reached named notUp short atEnd further target links standing
      inductionHypothesis =>
    rw [not_or] at named
    exact .linked ⟨named.1, named.2, notUp, Nat.not_lt.mp short⟩ (reached ▸ standing) further
      (inductionHypothesis arrives)
  | case11 trail piece rest entries reached named notUp short atEnd further node links noneLeft
      someLeft standing inductionHypothesis =>
    rw [not_or] at named
    have noLink : node.isLink = false := by
      cases node with
      | link target =>
        cases links with
        | zero => exact (noneLeft target rfl rfl).elim
        | succ links => exact (someLeft target links rfl rfl).elim
      | file | directory => rfl
    exact .entered ⟨named.1, named.2, notUp, Nat.not_lt.mp short⟩ (reached ▸ standing) noLink further
      (inductionHypothesis arrives)
  | case4 | case5 | case6 | case9 | case12 => cases arrives

/-- A name is looked up in the directory reached. -/
theorem walk_step {piece : String} {rest : List String} (step : IsStep piece)
    (inside : (system.reached trail).isDirectory) :
    system.walk aim links trail (piece :: rest) =
      match (system.reached trail).entries.lookup piece with
      | none =>
        if !rest.all String.isEmpty || aim = .use then .error .notFound
        else if rest ≠ [] ∧ aim = .fill then .error .isDirectory
        else .ok (trail.location ++ [piece])
      | some node =>
        if rest.all String.isEmpty ∧ aim = .entry then .ok (trail.location ++ [piece])
        else
          match node, links with
          | .link _, 0 => .error .tooManyLinks
          | .link target, links + 1 =>
            system.walk aim links (startOf trail target) (piecesOf target ++ rest)
          | node, links => system.walk aim links ((piece, node) :: trail) rest := by
  obtain ⟨entries, reached⟩ := Node.eq_directory inside
  rw [walk, reached]
  have ordinary : ¬(piece = "" ∨ piece = ".") := not_or.mpr ⟨step.nonempty, step.notHere⟩
  exact (if_neg ordinary).trans ((if_neg step.notUp).trans (if_neg (Nat.not_lt.mpr step.short)))

/-- These steps are those of a walk that succeeds. -/
theorem walk_of_walks (walks : system.Walks aim links trail pieces place) :
    system.walk aim links trail pieces = .ok place := by
  induction walks with
  | arrived links trail => rw [walk]
  | idle inside idle onward inductionHypothesis =>
    obtain ⟨entries, reached⟩ := Node.eq_directory inside
    rw [walk, reached]
    simpa only [idle, if_true] using inductionHypothesis
  | out inside onward inductionHypothesis =>
    obtain ⟨entries, reached⟩ := Node.eq_directory inside
    rw [walk, reached]
    simpa using inductionHypothesis
  | absent inside step missing last allowed =>
    rw [walk_step step inside, missing]
    rcases allowed with rfl | ⟨rfl, rfl⟩
    · simp [last]
    · simp
  | taken step standing last asEntry =>
    rw [walk_step step (Node.isDirectory_of_lookup standing), standing]
    exact if_pos ⟨last, asEntry⟩
  | linked step standing further onward inductionHypothesis =>
    rw [walk_step step (Node.isDirectory_of_lookup standing), standing]
    exact (if_neg further).trans inductionHypothesis
  | @entered links trail piece rest node place step standing noLink further onward
      inductionHypothesis =>
    rw [walk_step step (Node.isDirectory_of_lookup standing), standing]
    refine (if_neg further).trans ?_
    cases node with
    | file | directory => exact inductionHypothesis
    | link => cases noLink

/-- The steps of a walk and the walk as it is computed arrive at the same locations. -/
theorem walk_eq_ok_iff :
    system.walk aim links trail pieces = .ok place ↔ system.Walks aim links trail pieces place :=
  ⟨walks_of_walk, walk_of_walks⟩

/-- Every name on the way is an entry of the directory around it. -/
def Standing (system : FileSystem) : Trail → Prop
  | [] => True
  | (name, node) :: outer =>
    (system.reached outer).entries.lookup name = some node ∧ system.Standing outer

/-- Where no name has been entered, none can be missing. -/
theorem standing_nil (system : FileSystem) : system.Standing [] := trivial

theorem location_cons (name : String) (node : Node) (outer : Trail) :
    Trail.location ((name, node) :: outer) = outer.location ++ [name] := by
  simp [Trail.location]

theorem location_tail (trail : Trail) : Trail.location trail.tail = trail.location.dropLast := by
  cases trail with
  | nil => rfl
  | cons entry outer => rw [List.tail_cons, location_cons, List.dropLast_concat]

/-- What a standing trail has reached stands at its location. -/
theorem Standing.node? (standing : system.Standing trail) :
    system.node? trail.location = some (system.reached trail) := by
  induction trail with
  | nil => rfl
  | cons entry outer inductionHypothesis =>
    obtain ⟨name, node⟩ := entry
    rw [location_cons, FileSystem.node?, Node.find?_concat (inductionHypothesis standing.2)]
    exact standing.1

/-- What can be entered from a standing trail. -/
theorem Standing.node?_concat (standing : system.Standing trail) (name : String) :
    system.node? (trail.location ++ [name]) = (system.reached trail).entries.lookup name :=
  Node.find?_concat standing.node? name

theorem Standing.tail (standing : system.Standing trail) : system.Standing trail.tail := by
  cases trail with
  | nil => exact standing
  | cons entry outer => exact standing.2

theorem Standing.startOf (standing : system.Standing trail) (path : String) :
    system.Standing (startOf trail path) := by
  rw [FileSystem.startOf]
  split
  · trivial
  · exact standing

/-- What a standing trail leads through is a directory. -/
theorem Standing.isDirectory_tail (standing : system.Standing trail)
    (inside : (system.reached trail).isDirectory) : (system.reached trail.tail).isDirectory := by
  cases trail with
  | nil => exact inside
  | cons entry outer => exact Node.isDirectory_of_lookup standing.1

/-- Going on by names alone keeps a trail standing. -/
theorem Standing.enter? {names : Location} {entered : Trail} (standing : system.Standing trail)
    (enters : system.enter? names trail = some entered) :
    system.Standing entered ∧ entered.location = trail.location ++ names := by
  induction names generalizing trail with
  | nil =>
    cases enters
    exact ⟨standing, (List.append_nil _).symm⟩
  | cons name rest inductionHypothesis =>
    rw [FileSystem.enter?] at enters
    cases found : (system.reached trail).entries.lookup name with
    | none => simp [found] at enters
    | some node =>
      simp only [found] at enters
      have further : system.Standing ((name, node) :: trail) := ⟨found, standing⟩
      have ⟨stands, same⟩ := inductionHypothesis further enters
      exact ⟨stands, by rw [same, location_cons, List.append_assoc, List.singleton_append]⟩

/-- Where something stands, one gets by names alone. -/
theorem Standing.isSome_enter? {names : Location} (standing : system.Standing trail)
    (stands : (system.node? (trail.location ++ names)).isSome) :
    (system.enter? names trail).isSome := by
  induction names generalizing trail with
  | nil => rfl
  | cons name rest inductionHypothesis =>
    rw [FileSystem.enter?]
    cases found : (system.reached trail).entries.lookup name with
    | none =>
      have missing := (standing.node?_concat name).trans found
      rw [FileSystem.node?, ← List.singleton_append, ← List.append_assoc, Node.find?_append,
        ← FileSystem.node?, missing] at stands
      cases stands
    | some node =>
      have onward : system.Standing ((name, node) :: trail) := ⟨found, standing⟩
      refine inductionHypothesis onward ?_
      rwa [location_cons, List.append_assoc, List.singleton_append]

/-- No piece of a path holds a slash. -/
theorem noSlash_of_mem_pieces (text : List Char) : ∀ part ∈ Path.pieces text, '/' ∉ part := by
  induction text with
  | nil => simp [Path.pieces]
  | cons c rest inductionHypothesis =>
    rw [Path.pieces]
    split
    · simpa using inductionHypothesis
    · rename_i noSlash
      split
      · simpa using Ne.symm noSlash
      · rename_i first others cut
        rw [cut, List.forall_mem_cons] at inductionHypothesis
        exact List.forall_mem_cons.mpr
          ⟨List.not_mem_cons_of_ne_of_not_mem (Ne.symm noSlash) inductionHypothesis.1,
            inductionHypothesis.2⟩

theorem not_mem_of_mem_piecesOf {path piece : String} (member : piece ∈ piecesOf path) :
    '/' ∉ piece.toList := by
  obtain ⟨part, isPart, rfl⟩ := List.mem_map.mp member
  rw [String.toList_ofList]
  exact noSlash_of_mem_pieces _ part isPart

/-- Names that are all empty are no names. -/
theorem noSlashes {names : List String} (proper : ∀ name ∈ names, IsName name)
    (slashes : names.all String.isEmpty) : names = [] := by
  cases names with
  | nil => rfl
  | cons name rest =>
    rw [List.all_cons, Bool.and_eq_true, String.isEmpty_iff] at slashes
    exact absurd slashes.1 (proper name List.mem_cons_self).nonempty

section Growth

variable {before after : FileSystem} {trail other : Trail} (grows : before.Grows after)
  (standing : before.Standing trail) (otherStanding : after.Standing other)
  (same : other.location = trail.location)

include grows standing otherStanding same

/-- Trails to one location reach nodes of one kind in a file system and in one it has grown to. -/
theorem alike_of_grows : (before.reached trail).Alike (after.reached other) := by
  obtain ⟨node, found, alike⟩ := grows _ _ standing.node?
  rw [← same, otherStanding.node?] at found
  cases found
  exact alike

theorem isDirectory_of_grows (inside : (before.reached trail).isDirectory) :
    (after.reached other).isDirectory :=
  (alike_of_grows grows standing otherStanding same).isDirectory_eq ▸ inside

/-- An entry stays when a file system grows. -/
theorem lookup_of_grows {piece : String} {node : Node}
    (found : (before.reached trail).entries.lookup piece = some node) :
    ∃ grown, (after.reached other).entries.lookup piece = some grown ∧ node.Alike grown := by
  obtain ⟨grown, stands, alike⟩ := grows _ _ ((standing.node?_concat piece).trans found)
  rw [← same, otherStanding.node?_concat] at stands
  exact ⟨grown, stands, alike⟩

end Growth

/-- What stands somewhere is reached by a trail. -/
theorem exists_standing {location : Location} {node : Node}
    (stands : system.node? location = some node) :
    ∃ trail, system.Standing trail ∧ trail.location = location := by
  have entered := (standing_nil system).isSome_enter?
    (stands ▸ rfl : (system.node? location).isSome)
  obtain ⟨trail, enters⟩ := Option.isSome_iff_exists.mp entered
  exact ⟨trail, (standing_nil system).enter? enters⟩

/-- One trail leads to a location. -/
theorem Standing.unique {other : Trail} (standing : system.Standing trail)
    (otherStanding : system.Standing other) (same : trail.location = other.location) :
    trail = other := by
  induction trail generalizing other with
  | nil =>
    cases other with
    | nil => rfl
    | cons entry outer => simp [Trail.location] at same
  | cons entry outer inductionHypothesis =>
    obtain ⟨name, node⟩ := entry
    cases other with
    | nil => simp [Trail.location] at same
    | cons otherEntry otherOuter =>
      obtain ⟨otherName, otherNode⟩ := otherEntry
      rw [location_cons, location_cons] at same
      have ⟨sameOuter, sameName⟩ := List.append_inj' same rfl
      have outerSame := inductionHypothesis standing.2 otherStanding.2 sameOuter
      cases sameName
      subst outerSame
      cases standing.1.symm.trans otherStanding.1
      rfl

section Arrivals

variable (walks : system.Walks aim links trail pieces place)

include walks

/-- A walk that follows links arrives at no link. Only where something is to be filled nothing has to
stand. -/
theorem Walks.stands (follows : aim ≠ .entry) (standing : system.Standing trail)
    (noLink : (system.reached trail).isLink = false) :
    (∃ node, system.node? place = some node ∧ node.isLink = false) ∨
      aim = .fill ∧ system.node? place = none := by
  induction walks with
  | arrived links trail => exact .inl ⟨_, standing.node?, noLink⟩
  | idle inside idle onward inductionHypothesis => exact inductionHypothesis standing noLink
  | out inside onward inductionHypothesis =>
    obtain ⟨entries, reached⟩ := Node.eq_directory (standing.isDirectory_tail inside)
    exact inductionHypothesis standing.tail (reached ▸ rfl)
  | absent inside step missing last allowed =>
    rcases allowed with asEntry | ⟨toFill, _⟩
    · exact absurd asEntry follows
    · exact .inr ⟨toFill, (standing.node?_concat _).trans missing⟩
  | taken step found last asEntry => exact absurd asEntry follows
  | @linked links trail piece target rest place step found further onward inductionHypothesis =>
    obtain ⟨entries, reached⟩ := Node.eq_directory (Node.isDirectory_of_lookup found)
    refine inductionHypothesis (standing.startOf target) ?_
    rw [startOf]
    split
    · rfl
    · rw [reached]
      rfl
  | entered step found isNoLink further onward inductionHypothesis =>
    exact inductionHypothesis ⟨found, standing⟩ isNoLink

/-- A walk does not begin at a link. -/
theorem Walks.noLink (further : pieces ≠ []) : (system.reached trail).isLink = false := by
  have ofDirectory {node : Node} (inside : node.isDirectory) : node.isLink = false := by
    obtain ⟨entries, rfl⟩ := Node.eq_directory inside
    rfl
  cases walks with
  | arrived => exact absurd rfl further
  | idle inside | out inside | absent inside => exact ofDirectory inside
  | taken step found | linked step found | entered step found =>
    exact ofDirectory (Node.isDirectory_of_lookup found)

/-- A slash at the beginning leads nowhere else. -/
theorem Walks.behind_slash {rest : List String} (slash : pieces = "" :: rest) :
    system.Walks aim links trail rest place := by
  cases walks with
  | arrived => cases slash
  | idle inside idle onward =>
    cases slash
    exact onward
  | out inside onward => simp at slash
  | absent inside step | taken step | linked step | entered step =>
    cases slash
    exact absurd rfl step.nonempty

/-- Slashes lead nowhere else. -/
theorem Walks.place_of_slashes (slashes : pieces.all String.isEmpty) : place = trail.location := by
  induction walks with
  | arrived links trail => rfl
  | idle inside idle onward inductionHypothesis =>
    rw [List.all_cons, Bool.and_eq_true] at slashes
    exact inductionHypothesis slashes.2
  | out inside onward inductionHypothesis => cases slashes
  | absent inside step missing last allowed => simp [step.nonempty] at slashes
  | taken step found last asEntry => simp [step.nonempty] at slashes
  | linked step found further onward inductionHypothesis => simp [step.nonempty] at slashes
  | entered step found noLink further onward inductionHypothesis => simp [step.nonempty] at slashes

/-- A walk that arrives somewhere also arrives as a walk to an entry, and at the same place unless
that entry is a link. -/
theorem Walks.toEntry (standing : system.Standing trail) :
    ∃ entry, system.Walks .entry links trail pieces entry ∧
      (entry = place ∨ ∃ target, system.node? entry = some (.link target)) := by
  induction walks with
  | arrived links trail => exact ⟨_, .arrived links trail, .inl rfl⟩
  | idle inside idle onward inductionHypothesis =>
    obtain ⟨entry, walks, same⟩ := inductionHypothesis standing
    exact ⟨entry, .idle inside idle walks, same⟩
  | out inside onward inductionHypothesis =>
    obtain ⟨entry, walks, same⟩ := inductionHypothesis standing.tail
    exact ⟨entry, .out inside walks, same⟩
  | absent inside step missing last allowed =>
    exact ⟨_, .absent inside step missing last (.inl rfl), .inl rfl⟩
  | taken step found last asEntry => exact ⟨_, .taken step found last rfl, .inl rfl⟩
  | @linked links trail piece target rest place step found further onward inductionHypothesis =>
    by_cases last : rest.all String.isEmpty
    · exact ⟨_, .taken step found last rfl, .inr ⟨target, (standing.node?_concat piece).trans found⟩⟩
    · obtain ⟨entry, walks, same⟩ := inductionHypothesis (standing.startOf target)
      exact ⟨entry, .linked step found (fun both => last both.1) walks, same⟩
  | @entered links trail piece rest node place step found noLink further onward
      inductionHypothesis =>
    by_cases last : rest.all String.isEmpty
    · have here := onward.place_of_slashes last
      rw [location_cons] at here
      exact ⟨_, .taken step found last rfl, .inl here.symm⟩
    · obtain ⟨entry, walks, same⟩ := inductionHypothesis ⟨found, standing⟩
      exact ⟨entry, .entered step found noLink (fun both => last both.1) walks, same⟩

/-- A walk along names, past no link, arrives where they lead one after another. -/
theorem Walks.place_of_names (standing : system.Standing trail) (names : ∀ name ∈ pieces, IsName name)
    (noLinks : ∀ front target, front <+: pieces → (aim = .entry → front ≠ pieces) →
      system.node? (trail.location ++ front) ≠ some (.link target)) :
    place = trail.location ++ pieces := by
  induction walks with
  | arrived links trail => exact (List.append_nil _).symm
  | idle inside idle onward inductionHypothesis =>
    have named := names _ List.mem_cons_self
    rcases idle with empty | here
    · exact absurd empty named.nonempty
    · exact absurd here named.notHere
  | out inside onward inductionHypothesis => exact absurd rfl (names _ List.mem_cons_self).notUp
  | @absent links trail piece rest inside step missing last allowed =>
    rw [noSlashes (List.forall_mem_cons.mp names).2 last]
  | @taken links trail piece rest node step found last asEntry =>
    rw [noSlashes (List.forall_mem_cons.mp names).2 last]
  | @linked links trail piece target rest place step found further onward inductionHypothesis =>
    have standsThere := (standing.node?_concat piece).trans found
    refine absurd standsThere (noLinks [piece] target (List.prefix_append [piece] rest) ?_)
    intro asEntry whole
    cases whole
    exact further ⟨rfl, asEntry⟩
  | @entered links trail piece rest node place step found noLink further onward
      inductionHypothesis =>
    rw [inductionHypothesis ⟨found, standing⟩ (List.forall_mem_cons.mp names).2 ?_, location_cons,
      List.append_assoc, List.singleton_append]
    intro front target isFront notWhole
    rw [location_cons, List.append_assoc, List.singleton_append]
    exact noLinks (piece :: front) target (List.cons_prefix_cons.mpr ⟨rfl, isFront⟩)
      fun asEntry whole => notWhole asEntry (List.cons.inj whole).2

/-- Walks arrive at proper locations. -/
theorem Walks.proper (proper : system.Proper) (standing : system.Standing trail)
    (divided : ∀ piece ∈ pieces, '/' ∉ piece.toList) : place.Proper := by
  induction walks with
  | arrived links trail => exact proper _ _ standing.node?
  | idle inside idle onward inductionHypothesis =>
    exact inductionHypothesis standing (List.forall_mem_cons.mp divided).2
  | out inside onward inductionHypothesis =>
    exact inductionHypothesis standing.tail (List.forall_mem_cons.mp divided).2
  | @absent links trail piece rest inside step missing last allowed =>
    have isName : IsName piece :=
      ⟨step.nonempty, step.notHere, step.notUp, divided piece List.mem_cons_self⟩
    exact List.forall_mem_append.mpr
      ⟨proper _ _ standing.node?, List.forall_mem_singleton.mpr isName⟩
  | taken step found last asEntry => exact proper _ _ ((standing.node?_concat _).trans found)
  | linked step found further onward inductionHypothesis =>
    refine inductionHypothesis (standing.startOf _) (List.forall_mem_append.mpr ⟨?_, ?_⟩)
    · exact fun piece => not_mem_of_mem_piecesOf
    · exact (List.forall_mem_cons.mp divided).2
  | entered step found noLink further onward inductionHypothesis =>
    exact inductionHypothesis ⟨found, standing⟩ (List.forall_mem_cons.mp divided).2

end Arrivals

/-- A walk that does not stop at what stands under the names gets there by them, if that is no link,
and goes on from there. -/
theorem walks_of_names {names : Location} {node : Node}
    (further : ¬(pieces.all String.isEmpty ∧ aim = .entry))
    (standing : system.Standing trail) (steps : ∀ name ∈ names, IsStep name)
    (found : system.node? (trail.location ++ names) = some node) (noLink : node.isLink = false)
    (onward : ∀ inner, system.Standing inner → inner.location = trail.location ++ names →
      system.Walks aim links inner pieces place) :
    system.Walks aim links trail (names ++ pieces) place := by
  induction names generalizing trail with
  | nil => exact onward trail standing (List.append_nil _).symm
  | cons name rest inductionHypothesis =>
    rw [List.forall_mem_cons] at steps
    rw [← List.singleton_append, ← List.append_assoc] at found onward
    have ⟨entry, entered, entryNoLink⟩ : ∃ entry,
        system.node? (trail.location ++ [name]) = some entry ∧ entry.isLink = false := by
      by_cases last : rest = []
      · rw [last, List.append_nil] at found
        exact ⟨node, found, noLink⟩
      · obtain ⟨directory, stands, isDirectory⟩ := Node.isDirectory_of_below last found
        obtain ⟨entries, rfl⟩ := Node.eq_directory isDirectory
        exact ⟨_, stands, rfl⟩
    rw [standing.node?_concat] at entered
    rw [← location_cons name entry trail] at found onward
    have furtherYet : ¬((rest ++ pieces).all String.isEmpty ∧ aim = .entry) := by
      rw [List.all_append, Bool.and_eq_true]
      exact fun both => further ⟨both.1.2, both.2⟩
    exact .entered steps.1 entered entryNoLink furtherYet
      (inductionHypothesis ⟨entered, standing⟩ steps.2 found onward)

/-- A walk to an entry stays the same in a file system that has grown. -/
theorem Walks.grows {before after : FileSystem} {other : Trail} (grows : before.Grows after)
    (walks : before.Walks .entry links trail pieces place) (standing : before.Standing trail)
    (otherStanding : after.Standing other) (same : other.location = trail.location) :
    after.Walks .entry links other pieces place := by
  induction walks generalizing other with
  | arrived links trail => exact same ▸ .arrived links other
  | idle inside idle onward inductionHypothesis =>
    exact .idle (isDirectory_of_grows grows standing otherStanding same inside) idle
      (inductionHypothesis standing otherStanding same)
  | out inside onward inductionHypothesis =>
    refine .out (isDirectory_of_grows grows standing otherStanding same inside)
      (inductionHypothesis standing.tail otherStanding.tail ?_)
    rw [location_tail, location_tail, same]
  | absent inside step missing last allowed =>
    rw [← same]
    have otherInside := isDirectory_of_grows grows standing otherStanding same inside
    cases found : (after.reached other).entries.lookup _ with
    | none => exact .absent otherInside step found last allowed
    | some node => exact .taken step found last rfl
  | taken step found last asEntry =>
    rw [← same]
    obtain ⟨node, otherFound, _⟩ := lookup_of_grows grows standing otherStanding same found
    exact .taken step otherFound last rfl
  | @linked links trail piece target rest place step found further onward inductionHypothesis =>
    obtain ⟨node, otherFound, alike⟩ := lookup_of_grows grows standing otherStanding same found
    cases node with
    | file | directory => exact alike.elim
    | link otherTarget =>
      cases alike
      refine .linked step otherFound further
        (inductionHypothesis (standing.startOf target) (otherStanding.startOf target) ?_)
      rw [startOf, startOf]
      split
      · rfl
      · exact same
  | entered step found noLink further onward inductionHypothesis =>
    obtain ⟨node, otherFound, alike⟩ := lookup_of_grows grows standing otherStanding same found
    refine .entered step otherFound (alike.isLink_eq ▸ noLink) further
      (inductionHypothesis ⟨found, standing⟩ ⟨otherFound, otherStanding⟩ ?_)
    rw [location_cons, location_cons, same]

end FileSystem

end Menus
