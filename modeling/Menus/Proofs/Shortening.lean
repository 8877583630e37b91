import Menus.Path.Display
import Menus.Proofs.Surroundings

/-!
# What a shortened path keeps

A path is shown in one of four forms. A path that fits is shown as it is. From a longer one leading
directories are left out, as few as it takes; where no end of it fits that begins with a slash, only the
name behind the last slash is left, and where the name alone is too long, the two halves of what there is
room for. The forms exclude each other, and each says exactly which text it is.
-/

namespace Menus.Path

/-- The file name a path ends in: what stands behind its last slash, or all of a path without one. -/
structure IsFileName (path name : List Char) : Prop where
  /-- No slash is in the name. -/
  noSlash : '/' ∉ name
  /-- A slash or nothing is in front of it. -/
  behind : path = name ∨ ∃ front, path = front ++ '/' :: name

/-- An end of a path that a slash divides from what is in front of it: trailing directories and the file
name. -/
structure IsTail (path tail : List Char) : Prop where
  /-- It ends the path. -/
  ends : tail <:+ path
  /-- Something is in front of it. -/
  proper : tail ≠ path
  /-- It begins with the slash. -/
  slash : tail.head? = some '/'

/-- The text fits behind an ellipsis. -/
def FitsElided (limit : Nat) (tail : List Char) : Prop := (Text.ellipsis ++ tail).length ≤ limit

/-- The forms of a path that has to fit a limit. -/
inductive Shortened (limit : Nat) (path : List Char) : List Char → Prop where
  /-- A path that fits is shown as it is. -/
  | whole (fits : path.length ≤ limit) : Shortened limit path path
  /-- From a longer path, the tail is shown that keeps the most trailing directories among those that
  fit. -/
  | directories {tail : List Char} (long : limit < path.length) (isTail : IsTail path tail)
      (fits : FitsElided limit tail)
      (most : ∀ other, IsTail path other → FitsElided limit other → other <:+ tail) :
      Shortened limit path (Text.ellipsis ++ tail)
  /-- Where no tail fits, the file name is shown. -/
  | fileName {name : List Char} (long : limit < path.length)
      (tight : ∀ tail, IsTail path tail → ¬ FitsElided limit tail) (isFileName : IsFileName path name)
      (fits : name.length ≤ limit) : Shortened limit path name
  /-- Where the file name does not fit either, its two ends are shown, with as many characters as there
  is room for. The beginning has the odd one. -/
  | ends {front middle back : List Char} (long : limit < path.length)
      (tight : ∀ tail, IsTail path tail → ¬ FitsElided limit tail)
      (isFileName : IsFileName path (front ++ middle ++ back))
      (nameLong : limit < (front ++ middle ++ back).length)
      (exact : (front ++ Text.ellipsis ++ back).length = limit)
      (halves : back.length ≤ front.length ∧ front.length ≤ back.length + 1) :
      Shortened limit path (front ++ Text.ellipsis ++ back)

/-! ## Tails and pieces -/

/-- Pieces with a slash in front of each. -/
def slashed (kept : List (List Char)) : List Char := kept.flatMap fun piece => '/' :: piece

theorem elided_eq (kept : List (List Char)) : elided kept = Text.ellipsis ++ slashed kept := rfl

theorem slashed_append (front rest : List (List Char)) :
    slashed (front ++ rest) = slashed front ++ slashed rest := List.flatMap_append

/-- All pieces of a path with slashes in front of them are the path behind a slash. -/
theorem slashed_pieces (path : List Char) : slashed (pieces path) = '/' :: path := by
  have slashed_eq {list : List (List Char)} (filled : list ≠ []) :
      slashed list = '/' :: join list := by
    induction list with
    | nil => exact absurd rfl filled
    | cons piece rest inductionHypothesis =>
      cases rest with
      | nil => simp [slashed, join]
      | cons second others =>
        have further := inductionHypothesis (List.cons_ne_nil second others)
        rw [join_cons_cons, ← further]
        rfl
  rw [slashed_eq (pieces_ne_nil path), join_pieces]

/-- What ends a path and begins with a slash is a run of its last pieces, without the first piece. -/
theorem suffix_slash_iff (path tail : List Char) :
    tail <:+ path ∧ tail.head? = some '/' ↔
      ∃ kept, kept ≠ [] ∧ kept <:+ (pieces path).tail ∧ tail = slashed kept := by
  induction path with
  | nil =>
    constructor
    · rintro ⟨ends, slash⟩
      rw [List.suffix_nil.mp ends] at slash
      cases slash
    · rintro ⟨kept, filled, ends, -⟩
      exact absurd (List.suffix_nil.mp ends) filled
  | cons c rest inductionHypothesis =>
    rw [List.suffix_cons_iff]
    by_cases slash : c = '/'
    · subst slash
      rw [pieces, if_pos rfl, List.tail_cons]
      constructor
      · rintro ⟨whole | further, begins⟩
        · exact ⟨pieces rest, pieces_ne_nil rest, List.suffix_rfl, by rw [slashed_pieces, whole]⟩
        · obtain ⟨kept, filled, ends, same⟩ := inductionHypothesis.mp ⟨further, begins⟩
          exact ⟨kept, filled, ends.trans (List.tail_suffix _), same⟩
      · rintro ⟨kept, filled, ends, rfl⟩
        cases divided : pieces rest with
        | nil => exact absurd divided (pieces_ne_nil rest)
        | cons first others =>
          rw [divided, List.suffix_cons_iff] at ends
          cases ends with
          | inl all =>
            rw [all, ← divided, slashed_pieces]
            exact ⟨Or.inl rfl, rfl⟩
          | inr further =>
            have kept' : kept <:+ (pieces rest).tail := by
              rw [divided]
              exact further
            obtain ⟨ends, begins⟩ := inductionHypothesis.mpr ⟨kept, filled, kept', rfl⟩
            exact ⟨Or.inr ends, begins⟩
    · have tails : (pieces (c :: rest)).tail = (pieces rest).tail := by
        rw [pieces, if_neg slash]
        split
        · next none => rw [none]; rfl
        · next divided => rw [divided]; rfl
      rw [tails, ← inductionHypothesis]
      constructor
      · rintro ⟨whole | further, begins⟩
        · rw [whole, List.head?_cons, Option.some.injEq] at begins
          exact absurd begins slash
        · exact ⟨further, begins⟩
      · rintro ⟨further, begins⟩
        exact ⟨Or.inr further, begins⟩

/-- A tail of a path that does not fit is what ends it behind a slash: the whole path is too long. -/
theorem isTail_iff {limit : Nat} {path tail : List Char} (long : limit < path.length)
    (fits : FitsElided limit tail) :
    IsTail path tail ↔ tail <:+ path ∧ tail.head? = some '/' := by
  constructor
  · intro isTail
    exact ⟨isTail.ends, isTail.slash⟩
  · rintro ⟨ends, slash⟩
    refine ⟨ends, ?_, slash⟩
    rintro rfl
    rw [FitsElided, List.length_append] at fits
    omega

/-! ## The choice among the tails -/

variable {limit : Nat}

/-- The last pieces chosen are the longest run of them that fits. -/
theorem of_longestElided?_eq_some {all : List (List Char)} {shown : List Char}
    (found : longestElided? limit all = some shown) :
    ∃ kept, kept ≠ [] ∧ kept <:+ all ∧ shown = elided kept ∧ shown.length ≤ limit ∧
      ∀ other, other ≠ [] → other <:+ all → (elided other).length ≤ limit → other <:+ kept := by
  induction all with
  | nil => cases found
  | cons piece rest inductionHypothesis =>
    rw [longestElided?] at found
    split at found
    · next fits =>
      cases found
      exact ⟨piece :: rest, List.cons_ne_nil piece rest, List.suffix_rfl, rfl, fits,
        fun other _ ends _ => ends⟩
    · next tooLong =>
      obtain ⟨kept, filled, ends, same, fits, most⟩ := inductionHypothesis found
      refine ⟨kept, filled, ends.trans (List.suffix_cons piece rest), same, fits, ?_⟩
      intro other filled ends fits
      cases List.suffix_cons_iff.mp ends with
      | inl whole =>
        rw [whole] at fits
        exact absurd fits tooLong
      | inr further => exact most other filled further fits

/-- Where none is chosen, none fits. -/
theorem of_longestElided?_eq_none {all : List (List Char)}
    (notFound : longestElided? limit all = none) {kept : List (List Char)} (filled : kept ≠ [])
    (ends : kept <:+ all) : ¬ (elided kept).length ≤ limit := by
  induction all with
  | nil => exact absurd (List.suffix_nil.mp ends) filled
  | cons piece rest inductionHypothesis =>
    rw [longestElided?] at notFound
    split at notFound
    · cases notFound
    · next tooLong =>
      cases List.suffix_cons_iff.mp ends with
      | inl whole =>
        rw [whole]
        exact tooLong
      | inr further => exact inductionHypothesis notFound further

/-! ## The file name -/

/-- Every path ends in a file name. -/
theorem exists_isFileName (path : List Char) : ∃ name, IsFileName path name := by
  induction path with
  | nil => exact ⟨[], List.not_mem_nil, Or.inl rfl⟩
  | cons c rest inductionHypothesis =>
    obtain ⟨name, noSlash, whole | ⟨front, behind⟩⟩ := inductionHypothesis
    · by_cases slash : c = '/'
      · exact ⟨name, noSlash, Or.inr ⟨[], by rw [slash, whole, List.nil_append]⟩⟩
      · refine ⟨c :: name, ?_, Or.inl (by rw [whole])⟩
        rw [List.mem_cons, not_or]
        exact ⟨Ne.symm slash, noSlash⟩
    · exact ⟨name, noSlash, Or.inr ⟨c :: front, by rw [behind, List.cons_append]⟩⟩

/-- The file name is the last piece. -/
theorem IsFileName.getLast? {path name : List Char} (isFileName : IsFileName path name) :
    (pieces path).getLast? = some name := by
  obtain ⟨noSlash, rfl | ⟨front, rfl⟩⟩ := isFileName
  · rw [pieces_of_noSlash noSlash, List.getLast?_singleton]
  · rw [pieces_slash, pieces_of_noSlash noSlash, List.getLast?_concat]

/-- A path has one file name. -/
theorem IsFileName.unique {path name other : List Char} (isFileName : IsFileName path name)
    (isOther : IsFileName path other) : name = other :=
  Option.some.inj (isFileName.getLast?.symm.trans isOther.getLast?)

/-- A text is what is in front of a place, what is behind a later one, and the middle. -/
theorem take_append_middle (text : List Char) {first last : Nat} (ordered : first ≤ last) :
    text = text.take first ++ (text.take last).drop first ++ text.drop last := by
  have upTo : text.take first ++ (text.take last).drop first = text.take last := by
    have cut := List.take_append_drop first (text.take last)
    rwa [List.take_take, Nat.min_eq_left ordered] at cut
  rw [upTo, List.take_append_drop]

/-- A text longer than the limit is left with its two ends. -/
theorem elideMiddle_eq_ends {text : List Char} (roomy : 3 ≤ limit) (long : limit < text.length) :
    ∃ front middle back, text = front ++ middle ++ back ∧
      Text.elideMiddle limit text = front ++ Text.ellipsis ++ back ∧
      back.length ≤ front.length ∧ front.length ≤ back.length + 1 := by
  let front := (limit - 3 + 1) / 2
  let back := text.length - (limit - 3 - front)
  have ordered : front ≤ back := by
    simp only [front, back]
    omega
  refine ⟨text.take front, (text.take back).drop front, text.drop back,
    take_append_middle text ordered, ?_, ?_, ?_⟩
  · rw [Text.elideMiddle, if_neg (by omega)]
    rfl
  · simp only [List.length_take, List.length_drop, front, back]
    omega
  · simp only [List.length_take, List.length_drop, front, back]
    omega

/-! ## The forms -/

/-- A path is shown in one of the forms. -/
theorem shortened_shorten (roomy : 3 ≤ limit) (path : List Char) :
    Shortened limit path (shorten limit path) := by
  unfold shorten
  split
  · next fits => exact .whole fits
  · next tooLong =>
    have long : limit < path.length := by omega
    dsimp only
    split
    · next shorter found =>
      obtain ⟨kept, filled, ends, rfl, fits, most⟩ := of_longestElided?_eq_some found
      have isEnd := (suffix_slash_iff path (slashed kept)).mpr ⟨kept, filled, ends, rfl⟩
      rw [elided_eq]
      refine .directories long ((isTail_iff long fits).mpr isEnd) fits ?_
      intro other isTail fitsToo
      obtain ⟨others, otherFilled, otherEnds, rfl⟩ :=
        (suffix_slash_iff path other).mp ⟨isTail.ends, isTail.slash⟩
      obtain ⟨front, same⟩ := most others otherFilled otherEnds fitsToo
      rw [← same]
      exact ⟨slashed front, (slashed_append front others).symm⟩
    · next notFound =>
      have tight : ∀ tail, IsTail path tail → ¬ FitsElided limit tail := by
        intro tail isTail
        obtain ⟨kept, filled, ends, rfl⟩ :=
          (suffix_slash_iff path tail).mp ⟨isTail.ends, isTail.slash⟩
        exact of_longestElided?_eq_none notFound filled ends
      obtain ⟨name, isFileName⟩ := exists_isFileName path
      rw [isFileName.getLast?, Option.getD_some]
      by_cases fits : name.length ≤ limit
      · rw [Text.elideMiddle, if_pos fits]
        exact .fileName long tight isFileName fits
      · have nameLong : limit < name.length := by omega
        have exact := Text.length_elideMiddle limit name roomy nameLong
        obtain ⟨front, middle, back, rfl, same, halves⟩ := elideMiddle_eq_ends roomy nameLong
        rw [same] at exact ⊢
        exact .ends long tight isFileName nameLong exact halves

/-- The forms exclude each other, and each leaves no choice. -/
theorem Shortened.unique {path shown other : List Char} (isShown : Shortened limit path shown)
    (isOther : Shortened limit path other) : shown = other := by
  cases isShown with
  | whole fits =>
    cases isOther with
    | whole => rfl
    | directories long => omega
    | fileName long => omega
    | ends long => omega
  | directories long isTail fits most =>
    cases isOther with
    | whole short => omega
    | directories _ isTail' fits' most' =>
      have ends := most _ isTail' fits'
      have ends' := most' _ isTail fits
      rw [ends'.eq_of_length_le ends.length_le]
    | fileName _ tight => exact absurd fits (tight _ isTail)
    | ends _ tight => exact absurd fits (tight _ isTail)
  | fileName long tight isFileName fits =>
    cases isOther with
    | whole short => omega
    | directories _ isTail fits' => exact absurd fits' (tight _ isTail)
    | fileName _ _ isFileName' => exact isFileName.unique isFileName'
    | ends _ _ isFileName' nameLong =>
      rw [← isFileName.unique isFileName'] at nameLong
      omega
  | @ends front middle back long tight isFileName nameLong exact halves =>
    cases isOther with
    | whole short => omega
    | directories _ isTail fits' => exact absurd fits' (tight _ isTail)
    | fileName _ _ isFileName' fits' =>
      rw [isFileName.unique isFileName'] at nameLong
      omega
    | @ends front' middle' back' _ _ isFileName' _ exact' halves' =>
      have same := isFileName.unique isFileName'
      simp only [List.length_append] at exact exact'
      have beginnings : front.length = front'.length := by omega
      have endings : back.length = back'.length := by omega
      rw [List.append_assoc, List.append_assoc] at same
      obtain ⟨sameFront, sameRest⟩ := List.append_inj same beginnings
      obtain ⟨-, sameBack⟩ := List.append_inj' sameRest endings
      rw [sameFront, sameBack]

/-- No form is longer than the limit. -/
theorem Shortened.length_le {path shown : List Char} (isShown : Shortened limit path shown) :
    shown.length ≤ limit := by
  cases isShown with
  | whole fits => exact fits
  | directories _ _ fits => exact fits
  | fileName _ _ _ fits => exact fits
  | ends _ _ _ _ exact => exact Nat.le_of_eq exact

/-! ## The home directory -/

/-- A path with the home directory written `~`. -/
inductive Abbreviated (home path : List Char) : List Char → Prop where
  /-- The home directory itself. -/
  | home (given : home ≠ []) (same : steps path = steps home) : Abbreviated home path ['~']
  /-- Below the home directory, the steps that are left stand behind a slash, as the path has them. -/
  | below {rest : List Char} (given : home ≠ []) (named : rest ≠ [])
      (left : steps path = steps home ++ steps rest) (written : pieces rest <:+: pieces path) :
      Abbreviated home path ('~' :: '/' :: rest)
  /-- A path elsewhere stays as it is, and so does every path where there is no home directory. -/
  | elsewhere (outside : home = [] ∨ ¬ steps home <+: steps path) : Abbreviated home path path

variable {path : List Char}

/-- The steps taken off the front of a path are those of pieces there. -/
theorem of_behind?_eq_some {expected : List Step} {list rest : List (List Char)}
    (found : behind? expected list = some rest) :
    ∃ front, list = front ++ rest ∧ front.filterMap stepOf? = expected := by
  fun_induction behind? expected list with
  | case1 list =>
    cases found
    exact ⟨[], rfl, rfl⟩
  | case2 => cases found
  | case3 step steps piece others idle inductionHypothesis =>
    obtain ⟨front, rfl, taken⟩ := inductionHypothesis found
    exact ⟨piece :: front, rfl, by rw [List.filterMap_cons_none idle, taken]⟩
  | case4 steps piece others step takes inductionHypothesis =>
    obtain ⟨front, rfl, taken⟩ := inductionHypothesis found
    exact ⟨piece :: front, rfl, by rw [List.filterMap_cons_some takes, taken]⟩
  | case5 => cases found

/-- Where no steps can be taken off, a path does not begin with them. -/
theorem of_behind?_eq_none {expected : List Step} {list : List (List Char)}
    (notFound : behind? expected list = none) : ¬ expected <+: list.filterMap stepOf? := by
  fun_induction behind? expected list with
  | case1 => cases notFound
  | case2 step steps => simp
  | case3 step steps piece others idle inductionHypothesis =>
    rw [List.filterMap_cons_none idle]
    exact inductionHypothesis notFound
  | case4 steps piece others step takes inductionHypothesis =>
    rw [List.filterMap_cons_some takes, List.cons_prefix_cons]
    exact fun begins => inductionHypothesis notFound begins.2
  | case5 step steps piece others other takes different =>
    rw [List.filterMap_cons_some takes, List.cons_prefix_cons]
    exact fun begins => different begins.1.symm

/-- The pieces behind the start of a path are its last ones. -/
theorem start_suffix (path : List Char) : (start path).2 <:+ pieces path := by
  cases path with
  | nil => exact List.nil_suffix
  | cons c rest =>
    rw [start]
    split
    · next slash =>
      rw [pieces, if_pos slash]
      exact List.suffix_cons [] (pieces rest)
    · split
      · exact List.nil_suffix
      · next first others divided =>
        rw [divided]
        split
        · exact List.suffix_cons first others
        · exact List.suffix_rfl

/-- A piece takes no step if it is empty or only names the place where one stands. -/
theorem stepOf?_eq_none_iff {piece : List Char} : stepOf? piece = none ↔ piece = [] ∨ piece = ['.'] := by
  rw [stepOf?]
  split
  · next idle => exact ⟨fun _ => idle, fun _ => rfl⟩
  · next moves =>
    split <;> simp [moves]

/-- Behind a first piece that takes a step nothing is special. -/
theorem steps_of_pieces {first : List Char} {others : List (List Char)}
    (divided : pieces path = first :: others) (takes : stepOf? first ≠ none) :
    steps path = (first :: others).filterMap stepOf? := by
  rw [Ne, stepOf?_eq_none_iff, not_or] at takes
  cases path with
  | nil =>
    cases divided
    exact absurd rfl takes.1
  | cons c rest =>
    have noSlash : c ≠ '/' := by
      intro slash
      rw [pieces, if_pos slash, List.cons.injEq] at divided
      exact takes.1 divided.1.symm
    rw [steps, start, if_neg noSlash, divided]
    dsimp only
    rw [if_neg takes.2]
    rfl

/-- A path with a character in it takes a step. -/
theorem steps_ne_nil (filled : path ≠ []) : steps path ≠ [] := by
  cases path with
  | nil => exact absurd rfl filled
  | cons c rest =>
    by_cases slash : c = '/'
    · rw [steps, start, if_pos slash]
      exact List.cons_ne_nil _ _
    · obtain ⟨name, others, divided⟩ : ∃ name others, pieces (c :: rest) = (c :: name) :: others := by
        rw [pieces, if_neg slash]
        split
        · exact ⟨[], [], rfl⟩
        · exact ⟨_, _, rfl⟩
      by_cases here : c :: name = ['.']
      · rw [steps, start, if_neg slash, divided]
        dsimp only
        rw [if_pos here]
        exact List.cons_ne_nil _ _
      · cases takes : stepOf? (c :: name) with
        | none =>
          rw [stepOf?_eq_none_iff] at takes
          exact absurd takes (not_or.mpr ⟨List.cons_ne_nil c name, here⟩)
        | some step =>
          rw [steps_of_pieces divided (by simp [takes]), List.filterMap_cons_some takes]
          exact List.cons_ne_nil _ _

/-- What is left below a directory are last pieces of the path, behind the steps of the directory. -/
theorem of_below?_eq_some {directory left : List Char} (found : below? directory path = some left) :
    ∃ list, left = join (trimPieces list) ∧ list <:+ pieces path ∧
      steps path = steps directory ++ list.filterMap stepOf? := by
  rw [below?, Option.map_eq_some_iff] at found
  obtain ⟨list, taken, rfl⟩ := found
  have ends := start_suffix path
  rw [steps]
  split at taken
  · next step others first rest expected started =>
    rw [started] at ends
    rw [expected, started]
    split at taken
    · next same =>
      obtain ⟨front, rfl, takes⟩ := of_behind?_eq_some taken
      refine ⟨list, rfl, (List.suffix_append front list).trans ends, ?_⟩
      simp [same, takes]
    · cases taken
  · cases taken
  · next rest started =>
    rw [started] at ends
    rw [started]
    obtain ⟨front, rfl, takes⟩ := of_behind?_eq_some taken
    refine ⟨list, rfl, (List.suffix_append front list).trans ends, ?_⟩
    simp [takes]

/-- Where nothing is left below a directory, the path does not begin with the steps of the directory. -/
theorem of_below?_eq_none {directory : List Char} (filled : directory ≠ [])
    (notFound : below? directory path = none) : ¬ steps directory <+: steps path := by
  rw [below?, Option.map_eq_none_iff] at notFound
  rw [steps.eq_1 path]
  split at notFound
  · next step others first rest expected started =>
    rw [expected, started]
    split at notFound
    · next same =>
      intro begins
      rw [Option.toList_some, List.singleton_append, List.cons_prefix_cons] at begins
      exact of_behind?_eq_none notFound begins.2
    · next different =>
      intro begins
      rw [Option.toList_some, List.singleton_append, List.cons_prefix_cons] at begins
      exact different begins.1.symm
  · next expected _ => exact absurd expected (steps_ne_nil filled)
  · next rest started =>
    rw [started]
    exact of_behind?_eq_none notFound

/-- Trimming takes pieces off both ends that take no step, up to one that does. -/
theorem trimPieces_spec (list : List (List Char)) :
    ∃ front back, list = front ++ trimPieces list ++ back ∧
      front.filterMap stepOf? = [] ∧ back.filterMap stepOf? = [] ∧
      ∀ first ∈ (trimPieces list).head?, stepOf? first ≠ none := by
  let idle := fun piece : List Char => (stepOf? piece).isNone
  have kept : list.dropWhile idle =
      trimPieces list ++ ((list.dropWhile idle).reverse.takeWhile idle).reverse := by
    rw [trimPieces, ← List.reverse_append, List.takeWhile_append_dropWhile, List.reverse_reverse]
  refine ⟨list.takeWhile idle, ((list.dropWhile idle).reverse.takeWhile idle).reverse, ?_, ?_, ?_, ?_⟩
  · rw [List.append_assoc, ← kept, List.takeWhile_append_dropWhile]
  · rw [List.filterMap_eq_nil_iff]
    intro piece member
    exact Option.isNone_iff_eq_none.mp (List.all_eq_true.mp List.all_takeWhile piece member)
  · rw [List.filterMap_eq_nil_iff]
    intro piece member
    exact Option.isNone_iff_eq_none.mp
      (List.all_eq_true.mp List.all_takeWhile piece (List.mem_reverse.mp member))
  · intro first isFirst takesNone
    have head : (list.dropWhile idle).head? = some first := by
      rw [kept, List.head?_append, Option.mem_def.mp isFirst, Option.some_or]
    have stopped := List.head?_dropWhile_not idle list
    rw [head] at stopped
    simp [idle, takesNone] at stopped

/-- The home directory is abbreviated where the path leads through it. -/
theorem abbreviated_abbreviateHome (home path : List Char) :
    Abbreviated home path (abbreviateHome home path) := by
  unfold abbreviateHome
  split
  · next empty => exact .elsewhere (Or.inl (List.isEmpty_iff.mp empty))
  · next given =>
    rw [List.isEmpty_iff] at given
    cases found : below? home path with
    | none => exact .elsewhere (Or.inr (of_below?_eq_none given found))
    | some left =>
      obtain ⟨list, rfl, ends, stepped⟩ := of_below?_eq_some found
      obtain ⟨front, back, parts, noneInFront, noneBehind, takes⟩ := trimPieces_spec list
      clear found
      generalize trimPieces list = kept at parts takes ⊢
      subst parts
      have inside : kept <:+: pieces path := List.IsInfix.trans ⟨front, back, rfl⟩ ends.isInfix
      rw [List.filterMap_append, List.filterMap_append, noneInFront, noneBehind, List.nil_append,
        List.append_nil] at stepped
      cases kept with
      | nil =>
        rw [List.filterMap_nil, List.append_nil] at stepped
        exact .home given stepped
      | cons first others =>
        have moves : stepOf? first ≠ none := takes first rfl
        have divided : pieces (join (first :: others)) = first :: others :=
          pieces_join (List.cons_ne_nil first others) fun piece member =>
            FileSystem.noSlash_of_mem_pieces path piece (inside.subset member)
        rw [← steps_of_pieces divided moves] at stepped
        rw [← divided] at inside
        split
        · next none =>
          rw [Option.some.inj none] at divided
          cases divided
          exact absurd rfl moves
        · next rest some =>
          cases Option.some.inj some
          refine .below given ?_ stepped inside
          intro none
          rw [none] at divided
          cases divided
          exact absurd rfl moves
        · next none => cases none

/-! ## What a menu shows -/

/-- For every limit with room for an ellipsis, what a menu shows of a path fits, and it is the one text
that the forms allow for the path with the home directory abbreviated. -/
theorem display_is_the_form_that_fits (home path : String) (roomy : 3 ≤ limit) :
    (display home limit path).length ≤ limit ∧
      ∃ full, Abbreviated home.toList path.toList full ∧
        full = abbreviateHome home.toList path.toList ∧
        ∀ shown : String, Shortened limit full shown.toList ↔ shown = display home limit path := by
  have isForm := shortened_shorten roomy (abbreviateHome home.toList path.toList)
  refine ⟨?_, abbreviateHome home.toList path.toList, abbreviated_abbreviateHome _ _, rfl, ?_⟩
  · rw [display, String.length_ofList]
    exact isForm.length_le
  · intro shown
    rw [display]
    constructor
    · intro isShown
      rw [← isShown.unique isForm, String.ofList_toList]
    · rintro rfl
      rw [String.toList_ofList]
      exact isForm

/-- Below a home directory, leading directories are left out and the name of the file is kept whole. -/
theorem display_draft :
    3 ≤ 20 ∧ (display "/home/ana" 20 "/home/ana/long/structure/papers/draft.lyx").length ≤ 20 ∧
      Shortened 20 "~/long/structure/papers/draft.lyx".toList ".../papers/draft.lyx".toList := by
  obtain ⟨fits, full, -, rfl, form⟩ := display_is_the_form_that_fits "/home/ana"
    "/home/ana/long/structure/papers/draft.lyx" (show 3 ≤ 20 by decide)
  refine ⟨by decide, fits, ?_⟩
  have abbreviated : abbreviateHome "/home/ana".toList
      "/home/ana/long/structure/papers/draft.lyx".toList =
        "~/long/structure/papers/draft.lyx".toList := by decide
  rw [← abbreviated]
  exact (form _).mpr (by decide)

/-! ## The characters shown -/

theorem mem_of_mem_pieces {piece : List Char} (member : piece ∈ pieces path) : piece ⊆ path := by
  intro c inside
  have shown : c ∈ slashed (pieces path) :=
    List.mem_flatMap.mpr ⟨piece, member, List.mem_cons_of_mem '/' inside⟩
  rw [slashed_pieces, List.mem_cons] at shown
  refine shown.resolve_left ?_
  rintro rfl
  exact FileSystem.noSlash_of_mem_pieces path piece member inside

/-- Shortening brings only the dots of the ellipsis in. -/
theorem mem_of_mem_shortened {shown : List Char} (isShown : Shortened limit path shown) {c : Char}
    (member : c ∈ shown) : c ∈ path ∨ c = '.' := by
  have dots : ∀ {c : Char}, c ∈ Text.ellipsis → c = '.' := by simp [Text.ellipsis]
  have named {name : List Char} (isFileName : IsFileName path name) : name ⊆ path := by
    obtain ⟨-, rfl | ⟨front, rfl⟩⟩ := isFileName
    · exact List.Subset.refl _
    · exact fun c inside => List.mem_append_right front (List.mem_cons_of_mem '/' inside)
  cases isShown with
  | whole => exact Or.inl member
  | directories _ isTail =>
    cases List.mem_append.mp member with
    | inl inEllipsis => exact Or.inr (dots inEllipsis)
    | inr inTail => exact Or.inl (isTail.ends.subset inTail)
  | fileName _ _ isFileName => exact Or.inl (named isFileName member)
  | ends _ _ isFileName =>
    rw [List.mem_append, List.mem_append] at member
    obtain (inFront | inEllipsis) | inBack := member
    · exact Or.inl (named isFileName (by simp [inFront]))
    · exact Or.inr (dots inEllipsis)
    · exact Or.inl (named isFileName (by simp [inBack]))

/-- Abbreviating brings in only a tilde and a slash. -/
theorem mem_of_mem_abbreviated {home full : List Char} (isFull : Abbreviated home path full) {c : Char}
    (member : c ∈ full) : c ∈ path ∨ c = '~' ∨ c = '/' := by
  cases isFull with
  | home =>
    rw [List.mem_singleton] at member
    exact Or.inr (Or.inl member)
  | @below rest _ _ _ written =>
    have slashedRest := slashed_pieces rest
    rw [List.mem_cons, ← slashedRest] at member
    cases member with
    | inl tilde => exact Or.inr (Or.inl tilde)
    | inr behind =>
      obtain ⟨piece, isPiece, inside⟩ := List.mem_flatMap.mp behind
      cases List.mem_cons.mp inside with
      | inl slash => exact Or.inr (Or.inr slash)
      | inr inside => exact Or.inl (mem_of_mem_pieces (written.subset isPiece) inside)
  | elsewhere => exact Or.inl member

end Menus.Path
