import Menus.Rendering.Tree

/-!
# Levels of a printed tree

A printed tree can be limited to some levels. The limit is asked at every submenu, by the number of
rails that lead to it, and nothing else in the layout looks at it. So limiting the tree comes to the
same as printing all of a menu whose submenus at that level hold nothing. And each row that is printed
under the limit is printed without it just so, with the same rails and the same connector: what is left
out are whole rows, those of the entries below the limit. A limit that no entry stands below leaves out
nothing.

Statements about the rows of a tree go by induction along the layout, over menus and over runs of
entries at once.
-/

namespace Menus

mutual

/-- The menu whose submenus at a level hold nothing. The submenus of the menu itself are at level 0. -/
def Menu.cutAt (level : Nat) : Menu → Menu
  | ⟨name, entries⟩ => ⟨name, cutRun level entries⟩

/-- The run of entries whose submenus at a level hold nothing. -/
def cutRun (level : Nat) : List (Entry Menu) → List (Entry Menu)
  | [] => []
  | ⟨.submenu name (some child), label, optional, status⟩ :: rest =>
    let left := if level = 0 then ⟨child.name, []⟩ else child.cutAt (level - 1)
    ⟨.submenu name (some left), label, optional, status⟩ :: cutRun level rest
  | entry :: rest => entry :: cutRun level rest

end

mutual

/-- How many submenus are nested at most. -/
def Menu.nesting : Menu → Nat
  | ⟨_, entries⟩ => nestingOfRun entries

/-- How many submenus are nested at most in a run of entries. -/
def nestingOfRun : List (Entry Menu) → Nat
  | [] => 0
  | ⟨.submenu _ (some child), _, _, _⟩ :: rest => max (child.nesting + 1) (nestingOfRun rest)
  | _ :: rest => nestingOfRun rest

end

/-- Cutting submenus leaves as many entries. -/
theorem isEmpty_cutRun (level : Nat) (entries : List (Entry Menu)) :
    (cutRun level entries).isEmpty = entries.isEmpty := by
  unfold cutRun
  split <;> rfl

/-- What is printed under a limit is what is printed without it of the menu cut at the limit.

Proof: by induction along the layout. A submenu at the limit is not opened in the one tree and holds
nothing in the other; one above it is opened in both. The line of a submenu does not show its menu. -/
theorem lines_cutAt (bindingsOf : Request → List String) (options : DisplayOptions) :
    (∀ (rails : List Bool) (menu : Menu) (level : Nat),
      (menu.rows (some (rails.length + level)) rails).map (Row.line bindingsOf options) =
        ((menu.cutAt level).rows none rails).map (Row.line bindingsOf options)) ∧
    ∀ (rails : List Bool) (entries : List (Entry Menu)) (level : Nat),
      (rowsOf (some (rails.length + level)) rails entries).map (Row.line bindingsOf options) =
        (rowsOf none rails (cutRun level entries)).map (Row.line bindingsOf options) := by
  apply Menu.rows.mutual_induct
  case case1 =>
    intro rails name entries inductionHypothesis level
    exact inductionHypothesis level
  case case2 =>
    intro rails level
    rfl
  case case3 =>
    intro rails name child label optional status rest inChild inRest level
    cases level with
    | zero =>
      have cut : cutRun 0 (⟨.submenu name (some child), label, optional, status⟩ :: rest) =
          ⟨.submenu name (some ⟨child.name, []⟩), label, optional, status⟩ :: cutRun 0 rest := rfl
      have closed : opensAt (some (rails.length + 0)) rails = false := by simp [opensAt]
      rw [cut, rowsOf, rowsOf, closed, if_neg Bool.false_ne_true, List.map_cons, List.map_cons,
        List.nil_append, inRest 0, isEmpty_cutRun]
      rfl
    | succ below =>
      have cut : cutRun (below + 1) (⟨.submenu name (some child), label, optional, status⟩ :: rest) =
          ⟨.submenu name (some (child.cutAt below)), label, optional, status⟩ ::
            cutRun (below + 1) rest := rfl
      have opens : opensAt (some (rails.length + (below + 1))) rails = true := by simp [opensAt]
      have deeper := inChild below
      rw [List.length_append, List.length_singleton, Nat.add_assoc, Nat.add_comm 1] at deeper
      rw [cut, rowsOf, rowsOf, opens, if_pos rfl, List.map_cons, List.map_cons, List.map_append,
        deeper, inRest (below + 1), isEmpty_cutRun, ← List.map_append]
      rfl
  case case4 =>
    intro rails entry rest leaf inRest level
    rw [cutRun, rowsOf, rowsOf, List.map_cons, List.map_cons, inRest level, isEmpty_cutRun]
    · exact leaf
    · exact leaf
    · exact leaf

/-- Every row of a menu has the rails that lead to the menu. -/
theorem prefix_rails (limit : Option Nat) :
    (∀ (rails : List Bool) (menu : Menu), ∀ row ∈ menu.rows limit rails, rails <+: row.rails) ∧
    ∀ (rails : List Bool) (entries : List (Entry Menu)),
      ∀ row ∈ rowsOf limit rails entries, rails <+: row.rails := by
  apply Menu.rows.mutual_induct
  case case1 =>
    intro rails name entries inductionHypothesis
    exact inductionHypothesis
  case case2 =>
    intro rails row absent
    exact absurd absent List.not_mem_nil
  case case3 =>
    intro rails name child label optional status rest inChild inRest
    rw [rowsOf, List.forall_mem_cons, List.forall_mem_append]
    refine ⟨List.prefix_rfl, ?_, inRest⟩
    intro row member
    split at member
    · exact (List.prefix_append _ _).trans (inChild row member)
    · exact absurd member List.not_mem_nil
  case case4 =>
    intro rails entry rest leaf inRest
    rw [rowsOf, List.forall_mem_cons]
    · exact ⟨List.prefix_rfl, inRest⟩
    · exact leaf

/-- The rows printed under a limit are those printed without it that have no more rails than that.

Proof: by induction along the layout. Below a submenu at the limit every row has one rail too many. -/
theorem rows_limited (limit : Nat) :
    (∀ (rails : List Bool) (menu : Menu), rails.length ≤ limit →
      menu.rows (some limit) rails =
        (menu.rows none rails).filter fun row => row.rails.length ≤ limit) ∧
    ∀ (rails : List Bool) (entries : List (Entry Menu)), rails.length ≤ limit →
      rowsOf (some limit) rails entries =
        (rowsOf none rails entries).filter fun row => row.rails.length ≤ limit := by
  apply Menu.rows.mutual_induct
  case case1 =>
    intro rails name entries inductionHypothesis
    exact inductionHypothesis
  case case2 =>
    intro rails _
    rfl
  case case3 =>
    intro rails name child label optional status rest inChild inRest within
    have opens : opensAt none rails = true := rfl
    rw [rowsOf, rowsOf, List.filter_cons_of_pos (by simpa using within), List.filter_append,
      inRest within, opens, if_pos rfl]
    congr 2
    by_cases further : rails.length < limit
    · have deeper : (rails ++ [rest.isEmpty]).length ≤ limit := by
        rw [List.length_append, List.length_singleton]
        exact further
      rw [inChild deeper, opensAt, decide_eq_true further, if_pos rfl]
    · rw [opensAt, decide_eq_false further, if_neg Bool.false_ne_true, eq_comm,
        List.filter_eq_nil_iff]
      intro row member
      have longer := ((prefix_rails none).1 _ child row member).length_le
      rw [List.length_append, List.length_singleton] at longer
      simp only [decide_eq_true_eq]
      omega
  case case4 =>
    intro rails entry rest leaf inRest within
    rw [rowsOf, rowsOf, List.filter_cons_of_pos (by simpa using within), inRest within]
    · exact leaf
    · exact leaf

/-- No row has more rails than submenus are nested. -/
theorem length_rails_le :
    (∀ (rails : List Bool) (menu : Menu),
      ∀ row ∈ menu.rows none rails, row.rails.length ≤ rails.length + menu.nesting) ∧
    ∀ (rails : List Bool) (entries : List (Entry Menu)),
      ∀ row ∈ rowsOf none rails entries, row.rails.length ≤ rails.length + nestingOfRun entries := by
  apply Menu.rows.mutual_induct
  case case1 =>
    intro rails name entries inductionHypothesis
    exact inductionHypothesis
  case case2 =>
    intro rails row absent
    exact absurd absent List.not_mem_nil
  case case3 =>
    intro rails name child label optional status rest inChild inRest
    have opens : opensAt none rails = true := rfl
    rw [rowsOf, opens, if_pos rfl, nestingOfRun, List.forall_mem_cons, List.forall_mem_append]
    refine ⟨Nat.le_add_right _ _, ?_, ?_⟩
    · intro row member
      have bound := inChild row member
      rw [List.length_append, List.length_singleton] at bound
      omega
    · intro row member
      have bound := inRest row member
      omega
  case case4 =>
    intro rails entry rest leaf inRest
    rw [rowsOf, nestingOfRun, List.forall_mem_cons]
    · exact ⟨Nat.le_add_right _ _, inRest⟩
    · exact leaf
    · exact leaf

/-- Printing a menu under a limit is printing all of the menu whose submenus at that level hold nothing.
It leaves out whole rows of what is printed without a limit, those with more rails than the limit, and
changes none. So a limit that is not below the number of nested submenus changes nothing. -/
theorem limits_leave_out_rows (bindingsOf : Request → List String) (options : DisplayOptions)
    (menu : Menu) (limit : Nat) :
    menu.render bindingsOf { options with depth := some limit } =
        (menu.cutAt limit).render bindingsOf { options with depth := none } ∧
      menu.render bindingsOf { options with depth := none } =
        String.join ((menu.rows none []).map (Row.line bindingsOf options)) ∧
      menu.render bindingsOf { options with depth := some limit } =
        String.join (((menu.rows none []).filter fun row => row.rails.length ≤ limit).map
          (Row.line bindingsOf options)) ∧
      ∀ enough ≥ menu.nesting, menu.render bindingsOf { options with depth := some enough } =
        menu.render bindingsOf { options with depth := none } := by
  have printed (limit : Option Nat) (menu : Menu) :
      menu.render bindingsOf { options with depth := limit } =
        String.join ((menu.rows limit []).map (Row.line bindingsOf options)) := rfl
  have limited (limit : Nat) := (rows_limited limit).1 [] menu (Nat.zero_le limit)
  refine ⟨?_, printed none menu, ?_, ?_⟩
  · have cut := (lines_cutAt bindingsOf options).1 [] menu limit
    rw [List.length_nil, Nat.zero_add] at cut
    rw [printed, printed, cut]
  · rw [printed, limited]
  · intro enough bound
    have all : ∀ row ∈ menu.rows none [], decide (row.rails.length ≤ enough) = true := by
      intro row member
      have deep := length_rails_le.1 [] menu row member
      rw [List.length_nil, Nat.zero_add] at deep
      exact decide_eq_true (Nat.le_trans deep bound)
    rw [printed, printed, limited, List.filter_eq_self.mpr all]

end Menus
