import Menus.Proofs.Nesting

/-!
# References without a guard

Descents list the templates that an expansion enters, so the chain decides how far they go. Ways are
what descents would be without a chain: registered menus one after another, each referred to by the
one before it. If no way meets a menu twice, and no way is longer than the chain has places, then
the chain stops nothing that is registered. Then an expansion gives the same menu inside every chain
from which all ways are still clear, because the only thing it takes from the chain is the answer
whether to enter a menu, and this answer is always yes.

The warnings of an expansion name its chain, so they do depend on it.
-/

namespace Menus

namespace Registry

variable {registry : Registry} {context : Context}

/-- Registered menus one after another, the first referred to by `source` and each other one by the
menu before it. -/
inductive Way (registry : Registry) : Menu → List Menu → Prop where
  | stay (source : Menu) : Way registry source []
  | refer {source template : Menu} {entry : Entry Menu} {name : String} {rest : List Menu}
      (member : entry ∈ source.entries)
      (refers : entry.target? = some name)
      (registered : registry.menu? name = some template)
      (further : Way registry template rest) : Way registry source (template :: rest)

/-- The names met on a way. The source counts if it has a name, as registered menus do and the
menubar does not. -/
def visited (source : Menu) (path : List Menu) : List String :=
  chainNames [source] ++ path.map Menu.name

/-- From `source` all ways are clear behind the names of a chain: none meets a name twice, and none
meets more names than a chain may hold. -/
structure Clear (registry : Registry) (chain : List String) (source : Menu) : Prop where
  acyclic : ∀ path, registry.Way source path → (chain ++ visited source path).Nodup
  short : ∀ path, registry.Way source path →
    (chain ++ visited source path).length ≤ chainLimit

/-- An entry that enters a template gets the menu that opening the template gives. -/
theorem map_fst_attach? {chain : List String} {entry : Entry Menu} {template : Menu}
    (entered : registry.entered? chain entry = some template)
    (openMenu : Menu → Option Expanded) :
    (registry.attach? openMenu chain entry).map Prod.fst =
      ((openMenu template).map Expanded.menu).map entry.withChild := by
  rw [attach?_of_entered entered, Option.map_map, Option.map_map]
  rfl

/-- A descent is a way. -/
theorem Descent.way {chain : List String} {source : Menu} {path : List Menu}
    (descent : registry.Descent chain source path) : registry.Way source path := by
  induction descent with
  | stay chain source => exact .stay source
  | enter member entered _ inductionHypothesis =>
    obtain ⟨refers, _, _, registered⟩ := entered?_eq_some_iff.mp entered
    exact .refer member refers registered inductionHypothesis

namespace Clear

variable {chain : List String} {source template : Menu} {entry : Entry Menu}

/-- Ways stay clear without the names in front of them. -/
theorem alone (clear : registry.Clear chain source) : registry.Clear [] source := by
  constructor
  · intro path way
    exact (List.nodup_append.mp (clear.acyclic path way)).2.1
  · intro path way
    have bounded := clear.short path way
    rw [List.length_append] at bounded
    exact Nat.le_trans (Nat.le_add_left _ _) bounded

/-- A reference to a registered menu from which ways are clear is entered. -/
theorem entered (clear : registry.Clear chain source) (member : entry ∈ source.entries)
    (refers : entry.target? = some template.name)
    (registered : registry.menu? template.name = some template) :
    registry.entered? (chain ++ chainNames [source]) entry = some template := by
  have way : registry.Way source [template] := .refer member refers registered (.stay template)
  have distinct := clear.acyclic _ way
  have bounded := clear.short _ way
  rw [visited, ← List.append_assoc] at distinct bounded
  rw [entered?_eq_some_iff]
  refine ⟨refers, ?_, ?_, registered⟩
  · intro back
    obtain ⟨_, _, apart⟩ := List.nodup_append.mp distinct
    exact apart _ back template.name (by simp) rfl
  · rw [List.length_append, List.map_singleton, List.length_singleton] at bounded
    exact bounded

/-- Inside a menu from which ways are clear, they are clear from every menu it refers to: what is
visited from there is visited behind the outer menu. -/
theorem inside (clear : registry.Clear chain source) (member : entry ∈ source.entries)
    (refers : entry.target? = some template.name)
    (registered : registry.menu? template.name = some template) :
    registry.Clear (chain ++ chainNames [source]) template := by
  have among (path : List Menu) :
      (chain ++ chainNames [source] ++ visited template path).Sublist
        (chain ++ visited source (template :: path)) := by
    have own : (chainNames [template]).Sublist [template.name] := List.filter_sublist
    rw [visited, visited, List.append_assoc, List.map_cons, ← List.singleton_append]
    exact ((own.append_right _).append_left _).append_left _
  constructor
  · intro path way
    exact (clear.acyclic _ (.refer member refers registered way)).sublist (among path)
  · intro path way
    exact Nat.le_trans (among path).length_le
      (clear.short _ (.refer member refers registered way))

/-- Where ways are clear no menu of the empty name that refers to itself is entered: it would be met
twice. -/
theorem not_loops (clear : registry.Clear [] source) : ¬registry.Loops source := by
  rintro ⟨path, menu, descent, unnamed, entry, member, refers⟩
  have again := clear.acyclic _ (descent.repeats unnamed member refers 1).way
  simp [visited, List.replicate, List.nodup_append] at again

/-- Where ways are clear the expansion returns. -/
theorem exists_expand? (clear : registry.Clear [] source) (context : Context) :
    ∃ expanded, registry.expand? context source = some expanded :=
  (expand?_returns_iff context source).mpr clear.not_loops

/-- Inside a chain behind which ways are clear, the expansion gives the menu it gives alone.

Proof: by induction on the levels. A reference to a registered menu is entered from both chains, and
behind both ways are clear from there, so by the induction hypothesis both expansions of the
referenced menu give what it gives alone. Any other reference is emptied from both. -/
theorem menu_expandWithin (clear : registry.Clear chain source) (levels : Nat) :
    (registry.expandWithin context levels chain source).map Expanded.menu =
      (registry.expandWithin context levels [] source).map Expanded.menu := by
  induction levels generalizing chain source with
  | zero => rfl
  | succ levels inductionHypothesis =>
    have attached : ∀ entry ∈ source.entries,
        (registry.attach? (registry.expandWithin context levels (chain ++ chainNames [source]))
            (chain ++ chainNames [source]) entry).map Prod.fst =
          (registry.attach? (registry.expandWithin context levels ([] ++ chainNames [source]))
            ([] ++ chainNames [source]) entry).map Prod.fst := by
      intro entry member
      cases refers : entry.target? with
      | none => rw [attach?_of_no_target refers, attach?_of_no_target refers]
      | some name =>
        cases registered : registry.menu? name with
        | none =>
          have missed (chain : List String) : registry.entered? chain entry = none := by
            simp [entered?, refers, registered]
          obtain ⟨warning, here⟩ := emptied_of_not_entered refers (missed _)
          obtain ⟨other, there⟩ := emptied_of_not_entered refers (missed _)
          rw [here, there]
          rfl
        | some template =>
          obtain rfl := name_of_menu? registered
          have opens := (inductionHypothesis (clear.inside member refers registered)).trans
            (inductionHypothesis (clear.alone.inside member refers registered)).symm
          rw [map_fst_attach? (clear.entered member refers registered),
            map_fst_attach? (clear.alone.entered member refers registered), opens]
    have assembled := congrArg (Option.map (registry.assemble context source.name))
      (mapM_map_congr Prod.fst attached)
    simp only [Option.map_map] at assembled
    simp only [expandWithin, chainInside_eq, Option.map_map]
    exact assembled

end Clear

end Registry

end Menus
