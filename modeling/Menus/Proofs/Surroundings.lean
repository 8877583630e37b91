import Menus.Proofs.Changes

/-!
# Directories that are there already

A file is written with the directories around it created first where they are missing. If the directory
that is to hold it exists, nothing is created, however the path of the directory is written: with a slash
at its end or without, with links on the way, absolute or relative.

What a path says about the directories around its end is read off its pieces. Pieces at the end that take
no step can be left away: the path leads to the same place without them.
-/

namespace Menus

namespace Path

/-- A slash divides what is in front of it from what is behind. -/
theorem pieces_slash (front rest : List Char) :
    pieces (front ++ '/' :: rest) = pieces front ++ pieces rest := by
  induction front with
  | nil => rfl
  | cons c front inductionHypothesis =>
    rw [List.cons_append, pieces, pieces]
    split
    · rw [inductionHypothesis, List.cons_append]
    · rw [inductionHypothesis]
      cases divided : pieces front with
      | nil => exact absurd divided (pieces_ne_nil front)
      | cons first others => rfl

theorem join_cons_cons (piece second : List Char) (rest : List (List Char)) :
    join (piece :: second :: rest) = piece ++ '/' :: join (second :: rest) := rfl

/-- Pieces without slashes are those of the path they are joined to. -/
theorem pieces_join {list : List (List Char)} (filled : list ≠ [])
    (noSlashes : ∀ piece ∈ list, '/' ∉ piece) : pieces (join list) = list := by
  induction list with
  | nil => exact absurd rfl filled
  | cons piece rest inductionHypothesis =>
    obtain ⟨noSlash, others⟩ := List.forall_mem_cons.mp noSlashes
    cases rest with
    | nil => exact pieces_of_noSlash noSlash
    | cons second rest =>
      rw [join_cons_cons, pieces_append_slash noSlash,
        inductionHypothesis (List.cons_ne_nil _ _) others]

/-- Pieces are joined with a slash between the first of them and the others. -/
theorem join_append {front rest : List (List Char)} (filled : front ≠ []) (further : rest ≠ []) :
    join (front ++ rest) = join front ++ '/' :: join rest := by
  induction front with
  | nil => exact absurd rfl filled
  | cons piece front inductionHypothesis =>
    cases front with
    | nil =>
      cases rest with
      | nil => exact absurd rfl further
      | cons next others => rfl
    | cons second front =>
      have joined := inductionHypothesis (List.cons_ne_nil _ _)
      rw [List.cons_append] at joined
      rw [List.cons_append, List.cons_append, join_cons_cons, joined, join_cons_cons,
        List.append_assoc, List.cons_append]

/-- A path whose last piece is a name ends in that name. -/
theorem fileName?_of_pieces {path name : List Char} {front : List (List Char)}
    (divided : pieces path = front ++ [name]) (named : stepOf? name = some (.into name)) :
    fileName? path = some name := by
  have last (first : Option Step) (others : List (List Char)) :
      (first.toList ++ (others ++ [name]).filterMap stepOf?).getLast? = some (.into name) := by
    rw [List.filterMap_append, ← List.append_assoc, List.filterMap_cons_some named]
    exact List.getLast?_concat
  have isLast : (steps path).getLast? = some (.into name) := by
    cases path with
    | nil =>
      obtain ⟨_, isName⟩ := List.append_inj' (show [] ++ [[]] = front ++ [name] from divided) rfl
      cases isName
      cases named
    | cons c rest =>
      rw [steps, start]
      split
      · rename_i slash
        rw [pieces, if_pos slash] at divided
        cases front with
        | nil => exact absurd (List.cons.inj divided).2 (pieces_ne_nil rest)
        | cons first front =>
          rw [(List.cons.inj divided).2]
          exact last (some .root) front
      · rw [divided]
        cases front with
        | nil =>
          have notHere : name ≠ ['.'] := by
            rintro rfl
            cases named
          simp only [List.nil_append, notHere, if_false]
          exact last none []
        | cons first front =>
          simp only [List.cons_append]
          split
          · exact last (some .here) front
          · exact last none (first :: front)
  rw [fileName?, isLast]

/-- A path whose last piece is a name gets an extension behind the name. -/
theorem addExtension_of_pieces {extension path name : List Char} {front : List (List Char)}
    (divided : pieces path = front ++ [name]) (named : stepOf? name = some (.into name)) :
    addExtension extension path = path ++ '.' :: extension := by
  have kept : ((pieces path).reverse.dropWhile fun piece => (stepOf? piece).isNone).reverse =
      pieces path := by
    rw [divided, List.reverse_append, List.reverse_singleton, List.singleton_append,
      List.dropWhile_cons_of_neg (by simp [named])]
    simp
  rw [addExtension, fileName?_of_pieces divided named]
  simp only [kept, join_pieces]

/-- A name that is seen from a directory is put behind it and a slash. If the path of the directory
ends in one, there is none to be added. -/
theorem inDirectory_eq {directory name : List Char} (filled : directory ≠ []) (noSlash : '/' ∉ name) :
    ∃ front, inDirectory directory name = front ++ '/' :: name ∧
      (directory = front ∨ directory = front ++ ['/']) := by
  rw [inDirectory]
  split
  · rename_i slash
    exact absurd (List.mem_of_head? slash) noSlash
  · split
    · rename_i empty
      exact absurd (List.getLast?_eq_none_iff.mp empty) filled
    · rename_i slash
      obtain ⟨front, isFront⟩ := List.getLast?_eq_some_iff.mp slash
      exact ⟨front, by rw [isFront, List.append_assoc, List.singleton_append], .inr isFront⟩
    · exact ⟨directory, rfl, .inl rfl⟩

/-- A longer name is put behind a directory as a shorter one is. -/
theorem inDirectory_append {directory name rest : List Char} (named : name ≠ []) :
    inDirectory directory (name ++ rest) = inDirectory directory name ++ rest := by
  obtain ⟨c, others, rfl⟩ := List.exists_cons_of_ne_nil named
  rw [inDirectory, inDirectory, List.cons_append, List.head?_cons, List.head?_cons]
  split
  · rfl
  · split <;> simp

/-- Around an entry of a directory are the pieces of the directory. -/
theorem around_entry {front name : List Char} (noSlash : '/' ∉ name)
    (named : stepOf? name = some (.into name)) :
    around (front ++ '/' :: name) = (pieces front).reverse := by
  rw [around, pieces_slash, pieces_of_noSlash noSlash, List.reverse_append, List.reverse_singleton,
    List.singleton_append, List.dropWhile_cons_of_neg (by simp [named]), List.tail_cons]

end Path

namespace FileSystem

variable {system : FileSystem} {path : String} {place : Location} {links : Nat} {trail : Trail}
  {aim : Aim} {pieces : List String}

/-- The piece takes no step. -/
def IsIdle (piece : String) : Prop := piece = "" ∨ piece = "."

/-- The pieces that take no step are the empty one and the dot. -/
theorem isIdle_of_stepOf? {piece : List Char} (takesNone : Path.stepOf? piece = none) :
    IsIdle (String.ofList piece) := by
  rw [Path.stepOf?] at takesNone
  split at takesNone
  · rename_i idle
    rcases idle with rfl | rfl
    · exact .inl rfl
    · exact .inr rfl
  · split at takesNone <;> cases takesNone

/-- Pieces that take no step lead nowhere else. -/
theorem Walks.place_of_idle (walks : system.Walks aim links trail pieces place)
    (idle : ∀ piece ∈ pieces, IsIdle piece) : place = trail.location := by
  induction walks with
  | arrived links trail => rfl
  | idle inside _ onward inductionHypothesis =>
    exact inductionHypothesis (List.forall_mem_cons.mp idle).2
  | out => rcases idle _ List.mem_cons_self with empty | here <;> contradiction
  | absent _ step | taken step | linked step | entered step =>
    rcases idle _ List.mem_cons_self with empty | here
    · exact absurd empty step.nonempty
    · exact absurd here step.notHere

/-- Pieces at the end that take no step can be left away.

Proof: by induction on the walk. Where no other piece is left, nothing leads elsewhere. -/
theorem Walks.without_idle {kept idle : List String}
    (walks : system.Walks .use links trail pieces place) (divided : pieces = kept ++ idle)
    (isIdle : ∀ piece ∈ idle, IsIdle piece) : system.Walks .use links trail kept place := by
  have ending {links : Nat} {trail : Trail} {pieces : List String} {place : Location}
      (walks : system.Walks .use links trail pieces place) (all : pieces = [] ++ idle) :
      system.Walks .use links trail [] place := by
    rw [walks.place_of_idle (all ▸ isIdle)]
    exact .arrived links trail
  have further {rest : List String} : ¬(rest.all String.isEmpty ∧ Aim.use = .entry) :=
    fun both => nomatch both.2
  induction walks generalizing kept with
  | arrived links trail =>
    rw [(List.nil_eq_append_iff.mp divided).1]
    exact .arrived links trail
  | idle inside takesNone onward inductionHypothesis =>
    cases kept with
    | nil => exact ending (.idle inside takesNone onward) divided
    | cons first others =>
      obtain ⟨rfl, rfl⟩ := List.cons.inj divided
      exact .idle inside takesNone (inductionHypothesis rfl)
  | out inside onward inductionHypothesis =>
    cases kept with
    | nil => exact ending (.out inside onward) divided
    | cons first others =>
      obtain ⟨rfl, rfl⟩ := List.cons.inj divided
      exact .out inside (inductionHypothesis rfl)
  | absent inside step missing last allowed =>
    rcases allowed with asEntry | ⟨toFill, _⟩
    · cases asEntry
    · cases toFill
  | taken step found last asEntry => cases asEntry
  | linked step found notLast onward inductionHypothesis =>
    cases kept with
    | nil => exact ending (.linked step found notLast onward) divided
    | cons first others =>
      obtain ⟨rfl, rfl⟩ := List.cons.inj divided
      exact .linked step found further (inductionHypothesis (List.append_assoc _ _ _).symm)
  | entered step found noLink notLast onward inductionHypothesis =>
    cases kept with
    | nil => exact ending (.entered step found noLink notLast onward) divided
    | cons first others =>
      obtain ⟨rfl, rfl⟩ := List.cons.inj divided
      exact .entered step found noLink further (inductionHypothesis rfl)

/-- A directory that is there already is not created again, whatever path leads to it. -/
theorem establish_of_isDirectory (inside : system.isDirectory path)
    (around : FileSystem → FileSystem × Except AccessError Unit) :
    system.establish path around = (system, .ok ()) := by
  have there : system.createDirectory path = .error .alreadyExists := by
    have resolved := inside
    rw [FileSystem.isDirectory] at resolved
    split at resolved
    · rename_i location leads
      obtain ⟨entry, toEntry, same⟩ := entry_of_resolve leads
      have stands : (system.node? entry).isSome := by
        rcases same with rfl | ⟨target, isLink⟩
        · obtain ⟨node, found, _⟩ := Option.any_eq_true _ _ |>.mp resolved
          exact found ▸ rfl
        · exact isLink ▸ rfl
      simp [createDirectory, toEntry, stands, bind, Except.bind]
    · cases resolved
  simp [establish, there, inside]

/-- What a path that is not refused begins with is not refused either. -/
theorem refusalOf?_of_append {front rest : List Char} (whole : path.toList = front ++ rest)
    (filled : front ≠ []) (usable : refusalOf? path = none) :
    refusalOf? (String.ofList front) = none := by
  have text : path = String.ofList front ++ String.ofList rest := by
    rw [← String.ofList_append, ← whole, String.ofList_toList]
  rw [refusalOf?_eq_none_iff, whole, text, String.utf8ByteSize_append] at usable
  obtain ⟨_, noNul, short⟩ := usable
  rw [refusalOf?_eq_none_iff, String.toList_ofList]
  exact ⟨filled, fun nul => noNul (List.mem_append_left rest nul), by omega⟩

/-- A directory is one by a path without the pieces at the end that take no step. -/
theorem isDirectory_without_idle {kept idle : List (List Char)} (named : kept ≠ [])
    (filled : Path.join kept ≠ []) (isIdle : ∀ piece ∈ idle, Path.stepOf? piece = none)
    (divided : Path.pieces path.toList = kept ++ idle) (inside : system.isDirectory path) :
    system.isDirectory (String.ofList (Path.join kept)) := by
  have whole : path.toList = Path.join (kept ++ idle) := by rw [← divided, Path.join_pieces]
  by_cases none : idle = []
  · rw [none, List.append_nil] at whole
    rwa [← whole, String.ofList_toList]
  rw [Path.join_append named none] at whole
  have trimmed : piecesOf (String.ofList (Path.join kept)) = kept.map String.ofList := by
    rw [piecesOf, String.toList_ofList, Path.pieces_join named]
    intro piece member
    exact noSlash_of_mem_pieces _ piece (divided ▸ List.mem_append_left idle member)
  have isIdleText : ∀ piece ∈ idle.map String.ofList, IsIdle piece := by
    intro piece member
    obtain ⟨text, among, rfl⟩ := List.mem_map.mp member
    exact isIdle_of_stepOf? (isIdle text among)
  have sameStart : startOf system.workingDirectory (String.ofList (Path.join kept)) =
      startOf system.workingDirectory path := by
    obtain ⟨c, others, isText⟩ := List.exists_cons_of_ne_nil filled
    rw [startOf, startOf, whole, String.toList_ofList, isText]
    rfl
  rw [isDirectory] at inside ⊢
  split at inside
  · rename_i location leads
    have usable := usable_of_resolve leads
    obtain ⟨trail, standing, begins, walks⟩ := walks_of_follow (follow_of_resolve leads)
    rw [piecesOf, divided, List.map_append] at walks
    have shorter := walks.without_idle rfl isIdleText
    rw [← trimmed] at shorter
    have arrives := follow_of_walks standing (begins.trans sameStart.symm) shorter
    rw [resolve_of_follow (refusalOf?_of_append whole filled usable) arrives]
    exact inside
  · cases inside

/-- Through the pieces of a path that leads to a directory nothing is created.

Proof: by induction on the pieces, the last of them first. Those that take no step are left out; at the
first that takes one the directory is found. -/
theorem createThrough_of_isDirectory {around idle : List (List Char)}
    (inside : system.isDirectory path) (isIdle : ∀ piece ∈ idle, Path.stepOf? piece = none)
    (divided : Path.pieces path.toList = around.reverse ++ idle) :
    system.createThrough around = (system, .ok ()) := by
  induction around generalizing idle with
  | nil => rfl
  | cons piece around inductionHypothesis =>
    rw [createThrough]
    by_cases takesNone : Path.stepOf? piece = none
    · rw [if_pos (Option.isNone_iff_eq_none.mpr takesNone)]
      refine inductionHypothesis (List.forall_mem_cons.mpr ⟨takesNone, isIdle⟩) ?_
      rw [divided, List.reverse_cons, List.append_assoc, List.singleton_append]
    · rw [if_neg fun isNone => takesNone (Option.isNone_iff_eq_none.mp isNone)]
      have named : (piece :: around).reverse ≠ [] := by simp
      have filled : Path.join (piece :: around).reverse ≠ [] := by
        intro empty
        have parts := Path.pieces_join named fun part member =>
          noSlash_of_mem_pieces _ part (divided ▸ List.mem_append_left idle member)
        have isPiece : piece ∈ Path.pieces (Path.join (piece :: around).reverse) := by
          rw [parts]
          simp
        rw [empty] at isPiece
        exact takesNone (List.mem_singleton.mp isPiece ▸ rfl)
      exact establish_of_isDirectory (isDirectory_without_idle named filled isIdle divided inside) _

/-- No directory is found by the empty path. -/
theorem toList_ne_nil_of_isDirectory (inside : system.isDirectory path) : path.toList ≠ [] := by
  intro empty
  rw [isDirectory, resolve, refusalOf?, flawOf?, String.toList_eq_nil_iff.mp empty] at inside
  cases inside

/-- No directories are missing around an entry of a directory that is there already. -/
theorem createParents_of_isDirectory {name : List Char} (noSlash : '/' ∉ name)
    (named : Path.stepOf? name = some (.into name)) (inside : system.isDirectory path) :
    system.createParents (String.ofList (Path.inDirectory path.toList name)) = (system, .ok ()) := by
  obtain ⟨front, placed, written⟩ :=
    Path.inDirectory_eq (toList_ne_nil_of_isDirectory inside) noSlash
  rw [createParents, String.toList_ofList, placed, Path.around_entry noSlash named]
  rcases written with same | slashed
  · have divided : Path.pieces path.toList = (Path.pieces front).reverse.reverse ++ [] := by
      rw [same, List.reverse_reverse, List.append_nil]
    exact createThrough_of_isDirectory inside (List.forall_mem_nil _) divided
  · have divided : Path.pieces path.toList = (Path.pieces front).reverse.reverse ++ [[]] := by
      rw [slashed, Path.pieces_slash, List.reverse_reverse]
      rfl
    exact createThrough_of_isDirectory inside (List.forall_mem_singleton.mpr rfl) divided

end FileSystem

end Menus
