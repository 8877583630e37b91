import Menus.Proofs.Descent

/-!
# Expansions that come to an end

A descent takes a place on the chain for each name it enters, and the chain has `chainLimit` places.
Only the menu of the empty name takes no place. From it the next menu entered has a name, unless it
refers to itself: then it can be entered any number of times. So a descent that meets no such menu
takes at most two steps for each place, and an expansion returns if and only if it enters no menu of
the empty name that refers to the empty name.

What an expansion returns does not depend on how many levels it is given, once they are enough. The
limit of the levels is therefore not observable: no answer means that there is none.
-/

namespace Menus.Registry

variable {registry : Registry}

/-- The expansion enters a menu of the empty name that refers to the empty name. -/
def Loops (registry : Registry) (source : Menu) : Prop :=
  ∃ path menu, registry.Descent (chainNames [source]) source (path ++ [menu]) ∧
    menu.name = "" ∧ ∃ entry ∈ menu.entries, entry.target? = some ""

/-- A menu of the empty name that refers to itself is entered any number of times.

Proof: by induction on the number. Entering the menu leaves the chain as it was, so what let it be
entered before lets it be entered again. -/
theorem Descent.repeats {chain : List String} {source menu : Menu} {path : List Menu}
    (descent : registry.Descent chain source (path ++ [menu])) (unnamed : menu.name = "")
    {entry : Entry Menu} (member : entry ∈ menu.entries) (refers : entry.target? = some "")
    (count : Nat) :
    registry.Descent chain source (path ++ List.replicate (count + 1) menu) := by
  obtain ⟨_, _, _, entered⟩ := descent.of_snoc
  obtain ⟨_, fresh, room, registered⟩ := entered?_eq_some_iff.mp entered
  have traceless (times : Nat) : chainNames (List.replicate times menu) = [] := by
    simp [chainNames, unnamed]
  induction count with
  | zero => exact descent
  | succ count inductionHypothesis =>
    have among : entry ∈ (innermost source (path ++ List.replicate (count + 1) menu)).entries := by
      rw [List.replicate_succ', ← List.append_assoc, innermost_concat]
      exact member
    have again : registry.entered? (chain ++ chainNames (path ++ List.replicate (count + 1) menu))
        entry = some menu := by
      rw [chainNames_append, traceless, List.append_nil]
      exact entered?_eq_some_iff.mpr ⟨refers.trans (by rw [unnamed]), fresh, room, registered⟩
    rw [List.replicate_succ', ← List.append_assoc]
    exact inductionHypothesis.snoc among again

/-- A descent that never enters a menu of the empty name that refers to the empty name takes at most
two steps for each name the chain has room for, and one less from a menu that does not refer to the
empty name itself.

Proof: by induction on the descent. Entering a menu with a name takes one place on the chain.
Entering the menu of the empty name takes none, but the next menu entered from it has a name. -/
theorem Descent.length_le {chain : List String} {source : Menu} {path : List Menu}
    (descent : registry.Descent chain source path)
    (ends : ∀ before menu, registry.Descent chain source (before ++ [menu]) → menu.name = "" →
      ∀ entry ∈ menu.entries, entry.target? ≠ some "") :
    path.length ≤ 2 * (chainLimit - chain.length) ∧
      ((∀ entry ∈ source.entries, entry.target? ≠ some "") →
        path.length ≤ 2 * (chainLimit - chain.length) - 1) := by
  induction descent with
  | stay chain source => simp
  | @enter chain source template entry rest member entered deeper inductionHypothesis =>
    obtain ⟨refers, _, room, _⟩ := entered?_eq_some_iff.mp entered
    obtain ⟨general, sparing⟩ := inductionHypothesis fun before menu further =>
      ends (template :: before) menu (.enter member entered further)
    by_cases unnamed : template.name = ""
    · have sameChain : chain ++ chainNames [template] = chain := by simp [chainNames, unnamed]
      have final := ends [] template (.enter member entered (.stay _ _)) unnamed
      rw [sameChain] at sparing
      have shorter := sparing final
      refine ⟨by simp only [List.length_cons]; omega, fun avoids => ?_⟩
      exact absurd (refers.trans (by rw [unnamed])) (avoids entry member)
    · have longer : (chain ++ chainNames [template]).length = chain.length + 1 := by
        simp [chainNames, unnamed]
      rw [longer] at general
      simp only [List.length_cons]
      omega

/-- An expansion that returns with any number of levels enters no menu of the empty name that refers
to the empty name. -/
theorem not_loops_of_isSome {context : Context} {levels : Nat} {source : Menu}
    (returned : (registry.expandWithin context levels [] source).isSome = true) :
    ¬registry.Loops source := by
  rintro ⟨path, menu, descent, unnamed, entry, member, refers⟩
  have bounded := (isSome_expandWithin_iff context levels [] source).mp returned _
    (descent.repeats unnamed member refers levels)
  simp only [List.length_append, List.length_replicate] at bounded
  omega

/-- An expansion that enters no menu of the empty name that refers to the empty name returns. -/
theorem isSome_expand?_of_not_loops (context : Context) {source : Menu}
    (ends : ¬registry.Loops source) : (registry.expand? context source).isSome = true := by
  apply (isSome_expandWithin_iff context levelLimit [] source).mpr
  intro path descent
  have bounded := (descent.length_le fun before menu further unnamed entry member refers =>
    ends ⟨before, menu, further, unnamed, entry, member, refers⟩).1
  rw [levelLimit]
  omega

/-- An expansion returns if and only if it enters no menu of the empty name that refers to the empty
name. -/
theorem expand?_returns_iff (context : Context) (source : Menu) :
    (∃ expanded, registry.expand? context source = some expanded) ↔ ¬registry.Loops source := by
  rw [← Option.isSome_iff_exists]
  constructor
  · exact not_loops_of_isSome
  · exact isSome_expand?_of_not_loops context

/-- An expansion returns what it returns with any number of levels: the levels it may use are
enough for every expansion that comes to an end. -/
theorem expand?_eq_some_iff {context : Context} {source : Menu} {expanded : Expanded} :
    registry.expand? context source = some expanded ↔
      ∃ levels, registry.expandWithin context levels [] source = some expanded := by
  constructor
  · intro returned
    exact ⟨levelLimit, returned⟩
  · rintro ⟨levels, returned⟩
    have ends : ¬registry.Loops source :=
      not_loops_of_isSome (Option.isSome_of_eq_some returned)
    obtain ⟨other, expands⟩ := (expand?_returns_iff context source).mpr ends
    have same : some other = some expanded := by
      rw [← expandWithin_mono (Nat.le_max_right levels levelLimit) expands]
      exact expandWithin_mono (Nat.le_max_left levels levelLimit) returned
    rw [expands, same]

/-- Inside any chain an expansion that returns with any number of levels returns the same with the
levels it may use.

Proof: it enters no menu of the empty name that refers to itself, since that menu could be entered
more often than there are levels. So every descent is shorter than the limit. -/
theorem expandWithin_levelLimit {context : Context} {levels : Nat} {chain : List String}
    {source : Menu} {expanded : Expanded}
    (returned : registry.expandWithin context levels chain source = some expanded) :
    registry.expandWithin context levelLimit chain source = some expanded := by
  have bounded := (isSome_expandWithin_iff context levels chain source).mp
    (Option.isSome_of_eq_some returned)
  have ends (before : List Menu) (menu : Menu)
      (further : registry.Descent (chain ++ chainNames [source]) source (before ++ [menu]))
      (unnamed : menu.name = "") : ∀ entry ∈ menu.entries, entry.target? ≠ some "" := by
    intro entry member refers
    have again := bounded _ (further.repeats unnamed member refers levels)
    simp only [List.length_append, List.length_replicate] at again
    omega
  have returns : (registry.expandWithin context levelLimit chain source).isSome = true := by
    rw [isSome_expandWithin_iff]
    intro path descent
    have short := (descent.length_le ends).1
    rw [levelLimit]
    omega
  obtain ⟨other, expands⟩ := Option.isSome_iff_exists.mp returns
  have same : some other = some expanded := by
    rw [← expandWithin_mono (Nat.le_max_right levels levelLimit) expands]
    exact expandWithin_mono (Nat.le_max_left levels levelLimit) returned
  rw [expands, same]

end Menus.Registry
