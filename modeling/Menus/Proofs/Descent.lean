import Menus.Proofs.Assembly

/-!
# Menus expanded within one another

Expanding a template enters the templates that its submenus refer to, and those enter others. A
descent lists templates entered one within the other, outermost first. Which templates are entered
depends on the registry and on the chain of names alone, not on the context, so descents say without
expanding anything how deep an expansion goes: it returns exactly when every descent is shorter than
the levels it may use.

The names on a descent are guarded by the chain: those that are not empty are distinct, and there
are at most `chainLimit` of them. The empty name is not on the chain.
-/

namespace Menus

/-- The names by which menus stand on a chain. The empty name is none. -/
def chainNames (menus : List Menu) : List String :=
  (menus.map Menu.name).filter fun name => !name.isEmpty

/-- Menus one after another stand on a chain one after another. -/
theorem chainNames_append (before after : List Menu) :
    chainNames (before ++ after) = chainNames before ++ chainNames after := by
  simp [chainNames]

/-- The menu a descent ends in: the last template entered, or the source. -/
def innermost : Menu → List Menu → Menu
  | source, [] => source
  | _, template :: rest => innermost template rest

/-- A descent ends in the template entered last. -/
@[simp] theorem innermost_concat (source : Menu) (path : List Menu) (last : Menu) :
    innermost source (path ++ [last]) = last := by
  induction path generalizing source with
  | nil => rfl
  | cons template rest inductionHypothesis => exact inductionHypothesis template

namespace Registry

variable {registry : Registry}

/-- Entering a menu appends its name to the chain, if it has one. -/
theorem chainInside_eq (chain : List String) (menu : Menu) :
    chainInside chain menu.name = chain ++ chainNames [menu] := by
  by_cases unnamed : menu.name.isEmpty <;> simp [chainInside, chainNames, unnamed]

/-- Templates that expanding `source` enters one within the other, outermost first. The chain holds
the names down to the source. -/
inductive Descent (registry : Registry) : List String → Menu → List Menu → Prop where
  | stay (chain : List String) (source : Menu) : Descent registry chain source []
  | enter {chain : List String} {source template : Menu} {entry : Entry Menu} {rest : List Menu}
      (member : entry ∈ source.entries)
      (entered : registry.entered? chain entry = some template)
      (deeper : Descent registry (chain ++ chainNames [template]) template rest) :
      Descent registry chain source (template :: rest)

/-- An expansion returns exactly when every descent is shorter than the levels it may use. The
context plays no part in this.

Proof: by induction on the levels. Without levels nothing returns, and staying is a descent of
length zero. With a level more, the expansion returns when the expansions of all entered templates
do; a descent of the source is empty or enters one of these templates and descends from there. -/
theorem isSome_expandWithin_iff (context : Context) (levels : Nat) (chain : List String)
    (source : Menu) :
    (registry.expandWithin context levels chain source).isSome = true ↔
      ∀ path, registry.Descent (chain ++ chainNames [source]) source path →
        path.length < levels := by
  induction levels generalizing chain source with
  | zero =>
    simp only [expandWithin, Option.isSome_none, Bool.false_eq_true, false_iff]
    intro bounded
    exact Nat.not_lt_zero _ (bounded [] (.stay _ _))
  | succ levels inductionHypothesis =>
    simp only [expandWithin, Option.isSome_map, isSome_mapM_iff, isSome_attach?_iff,
      inductionHypothesis, chainInside_eq]
    constructor
    · intro bounded path descent
      cases descent with
      | stay => exact Nat.zero_lt_succ _
      | enter member entered deeper =>
        exact Nat.succ_lt_succ (bounded _ member _ entered _ deeper)
    · intro bounded entry member template entered path deeper
      exact Nat.lt_of_succ_lt_succ (bounded _ (.enter member entered deeper))

/-- More levels change no expansion that returns.

Proof: by induction on the levels. An entry that enters a template keeps what opening it gave, by
the induction hypothesis; what other entries get does not depend on opening at all. -/
theorem expandWithin_mono {context : Context} {levels more : Nat} {chain : List String}
    {source : Menu} {expanded : Expanded} (enough : levels ≤ more)
    (returned : registry.expandWithin context levels chain source = some expanded) :
    registry.expandWithin context more chain source = some expanded := by
  induction levels generalizing more chain source expanded with
  | zero => simp [expandWithin] at returned
  | succ levels inductionHypothesis =>
    obtain ⟨more, rfl⟩ := Nat.exists_eq_succ_of_ne_zero (by omega : more ≠ 0)
    simp only [expandWithin, Option.map_eq_some_iff] at returned ⊢
    obtain ⟨attached, mapped, assembled⟩ := returned
    refine ⟨attached, mapM_eq_some_of_extends ?_ mapped, assembled⟩
    intro entry _ result given
    cases entered : registry.entered? (chainInside chain source.name) entry with
    | some template =>
      rw [attach?_of_entered entered, Option.map_eq_some_iff] at given ⊢
      obtain ⟨opened, opens, same⟩ := given
      exact ⟨opened, inductionHypothesis (Nat.le_of_succ_le_succ enough) opens, same⟩
    | none =>
      obtain ⟨unchanged, attached⟩ := attach?_of_not_entered entered
      rw [attached] at given ⊢
      exact given

namespace Descent

variable {chain : List String} {source : Menu} {path : List Menu}

/-- A descent goes on with a template entered from the menu it ends in. -/
theorem snoc (descent : registry.Descent chain source path) {entry : Entry Menu} {template : Menu}
    (member : entry ∈ (innermost source path).entries)
    (entered : registry.entered? (chain ++ chainNames path) entry = some template) :
    registry.Descent chain source (path ++ [template]) := by
  induction descent with
  | stay chain source =>
    exact .enter member (by simpa [chainNames] using entered) (.stay _ _)
  | enter earlier first _ inductionHypothesis =>
    refine .enter earlier first (inductionHypothesis member ?_)
    rw [List.append_assoc, ← chainNames_append]
    exact entered

/-- What a descent ends with was entered from the menu before it. -/
theorem of_snoc {template : Menu} (descent : registry.Descent chain source (path ++ [template])) :
    registry.Descent chain source path ∧ ∃ entry ∈ (innermost source path).entries,
      registry.entered? (chain ++ chainNames path) entry = some template := by
  induction path generalizing chain source with
  | nil =>
    cases descent with
    | enter member entered deeper =>
      exact ⟨.stay _ _, _, member, by simpa [chainNames] using entered⟩
  | cons first rest inductionHypothesis =>
    cases descent with
    | enter member entered deeper =>
      obtain ⟨shorter, entry, among, last⟩ := inductionHypothesis deeper
      rw [List.append_assoc, ← chainNames_append] at last
      exact ⟨.enter member entered shorter, entry, among, last⟩

/-- A template on a descent is registered under its name. -/
theorem registered (descent : registry.Descent chain source path) {menu : Menu}
    (member : menu ∈ path) : registry.menu? menu.name = some menu := by
  induction descent with
  | stay => exact absurd member List.not_mem_nil
  | enter _ entered _ inductionHypothesis =>
    rcases List.mem_cons.mp member with rfl | later
    · obtain ⟨_, _, _, registered⟩ := entered?_eq_some_iff.mp entered
      exact registered
    · exact inductionHypothesis later

/-- Along a descent the names on the chain stay distinct and no more than its limit.

Proof: by induction on the descent. A template is entered only when its name is not on the chain and
the chain has room for one more. -/
theorem guards_chain (descent : registry.Descent chain source path) (distinct : chain.Nodup)
    (short : chain.length ≤ chainLimit) :
    (chain ++ chainNames path).Nodup ∧ (chain ++ chainNames path).length ≤ chainLimit := by
  induction descent with
  | stay chain source => simpa [chainNames] using ⟨distinct, short⟩
  | @enter chain source template entry rest _ entered deeper inductionHypothesis =>
    obtain ⟨_, fresh, room, _⟩ := entered?_eq_some_iff.mp entered
    have step : (chain ++ chainNames [template]).Nodup ∧
        (chain ++ chainNames [template]).length ≤ chainLimit := by
      by_cases unnamed : template.name.isEmpty
      · simpa [chainNames, unnamed] using ⟨distinct, short⟩
      · have appended : chainNames [template] = [template.name] := by
          simp [chainNames, unnamed]
        rw [appended, List.length_append]
        refine ⟨List.nodup_append.mpr ⟨distinct, by simp, ?_⟩, room⟩
        intro name member other last same
        rw [List.mem_singleton.mp last] at same
        exact fresh (same ▸ member)
    rw [← List.singleton_append, chainNames_append, ← List.append_assoc]
    exact inductionHypothesis step.1 step.2

end Descent

end Registry

end Menus
