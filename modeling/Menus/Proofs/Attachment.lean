import Menus.Expansion
import Menus.Proofs.Mapping

/-!
# The menus attached to submenus

Attaching a menu to an entry has one of three outcomes. An entry that is no submenu stays as it is.
A reference that the chain stops, or that nobody registered, is emptied. Every other reference enters
the registered template, and the entry gets what opening that template gives. Only this last outcome
depends on opening templates, and only it can fail.

Which outcome it is depends on the registry, the chain and the entry. `Registry.entered?` decides it,
and statements about expansions go by it without looking into `Registry.attach?` again.
-/

namespace Menus

namespace Registry

variable {registry : Registry}

/-- Looking up a name finds a menu of that name. -/
theorem name_of_menu? {name : String} {menu : Menu} (found : registry.menu? name = some menu) :
    menu.name = name := by
  simpa using List.find?_some found

/-- The template that an entry makes an expansion enter from a chain. -/
def entered? (registry : Registry) (chain : List String) (entry : Entry Menu) : Option Menu :=
  match entry.target? with
  | none => none
  | some name => if stops chain name then none else registry.menu? name

/-- What it takes to enter a template: the entry refers to it by its name, that name is not on the
chain, and the chain has room. -/
theorem entered?_eq_some_iff {chain : List String} {entry : Entry Menu} {template : Menu} :
    registry.entered? chain entry = some template ↔
      entry.target? = some template.name ∧ template.name ∉ chain ∧ chain.length < chainLimit ∧
        registry.menu? template.name = some template := by
  rw [entered?]
  constructor
  · intro entered
    cases refers : entry.target? with
    | none => simp [refers] at entered
    | some name =>
      simp only [refers] at entered
      split at entered
      · simp at entered
      · rename_i passed
        have same := name_of_menu? entered
        subst same
        simp only [stops, List.contains_eq_mem, Bool.or_eq_true, decide_eq_true_eq, not_or,
          Nat.not_le] at passed
        exact ⟨rfl, passed.1, passed.2, entered⟩
  · rintro ⟨refers, fresh, room, registered⟩
    simp [refers, stops, fresh, Nat.not_le.mpr room, registered]

/-- An entry that refers to no menu stays as it is. -/
theorem attach?_of_no_target {openMenu : Menu → Option Expanded} {chain : List String}
    {entry : Entry Menu} (leaf : entry.target? = none) :
    registry.attach? openMenu chain entry = some (entry, []) := by
  simp [attach?, leaf]

/-- An entry that enters a template gets what opening the template gives. -/
theorem attach?_of_entered {chain : List String} {entry : Entry Menu} {template : Menu}
    (entered : registry.entered? chain entry = some template)
    (openMenu : Menu → Option Expanded) :
    registry.attach? openMenu chain entry = (openMenu template).map fun expanded =>
      (entry.withChild expanded.menu, expanded.warnings) := by
  obtain ⟨refers, fresh, room, registered⟩ := entered?_eq_some_iff.mp entered
  simp [attach?, refers, stops, fresh, Nat.not_le.mpr room, registered]

/-- A reference to `name` gets an empty menu of that name and a warning, whatever opening templates
would give. -/
def Emptied (registry : Registry) (chain : List String) (entry : Entry Menu) (name : String) :
    Prop :=
  ∃ warning, ∀ openMenu : Menu → Option Expanded,
    registry.attach? openMenu chain entry = some (entry.withChild (.empty name), [warning])

/-- A reference that enters no template is emptied. -/
theorem emptied_of_not_entered {chain : List String} {entry : Entry Menu} {name : String}
    (refers : entry.target? = some name) (notEntered : registry.entered? chain entry = none) :
    registry.Emptied chain entry name := by
  by_cases stopped : stops chain name = true
  · exact ⟨.notEntered name chain, fun openMenu => by simp [attach?, refers, stopped]⟩
  · have missing : registry.menu? name = none := by
      simpa [entered?, refers, stopped] using notEntered
    exact ⟨.undefined name, fun openMenu => by simp [attach?, refers, stopped, missing]⟩

/-- What an entry that enters no template gets does not depend on opening templates. -/
theorem attach?_of_not_entered {chain : List String} {entry : Entry Menu}
    (notEntered : registry.entered? chain entry = none) :
    ∃ result, ∀ openMenu : Menu → Option Expanded,
      registry.attach? openMenu chain entry = some result := by
  cases refers : entry.target? with
  | none => exact ⟨(entry, []), fun openMenu => attach?_of_no_target refers⟩
  | some name =>
    obtain ⟨warning, attached⟩ := emptied_of_not_entered refers notEntered
    exact ⟨(entry.withChild (.empty name), [warning]), attached⟩

/-- Attaching fails exactly where opening the entered template does. -/
theorem isSome_attach?_iff (openMenu : Menu → Option Expanded) (chain : List String)
    (entry : Entry Menu) :
    (registry.attach? openMenu chain entry).isSome = true ↔
      ∀ template, registry.entered? chain entry = some template →
        (openMenu template).isSome = true := by
  cases entered : registry.entered? chain entry with
  | some template => simp [attach?_of_entered entered]
  | none =>
    obtain ⟨result, attached⟩ := attach?_of_not_entered entered
    simp [attached]

end Registry

end Menus
