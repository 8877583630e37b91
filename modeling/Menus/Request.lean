import Menus.Text.Blank

/-!
# Action requests

What a menu line asks the application to do: the name of an action and its argument. The origin
records which part of the application built the request. It takes no part in comparing requests,
so a key binding or an exclusion given for one origin holds for all.
-/

namespace Menus

/-- Which part of the application built a request. -/
inductive Origin where
  /-- Built by a collaborator of the menus. -/
  | internal
  /-- Built from a definition or by an expansion. -/
  | menu
  /-- Built from a toolbar definition. -/
  | toolbar
  /-- Built by the keyboard binder. -/
  | keyboard
deriving DecidableEq, Repr, Inhabited

/-- An action and its argument. The argument is empty for an action that takes none. -/
structure Request where
  action : String
  argument : String
  origin : Origin
deriving DecidableEq, Repr, Inhabited

namespace Request

/-- A request that the menus build. -/
def ofMenu (action argument : String) : Request :=
  ⟨action, argument, .menu⟩

/-- The request of a line that does nothing, shown where a list has no content. -/
def noAction : Request :=
  ofMenu "noaction" ""

/-- The request does nothing, whatever its argument. -/
def isNoAction (request : Request) : Bool :=
  request.action == "noaction"

/-- Splits a command string: the action is the first word, the argument what follows the blanks
after it. Blanks at either end of the string do not count. -/
def ofCommand (command : String) : Request :=
  let words := Text.trim command.toList
  ofMenu (String.ofList (Text.firstWord words)) (String.ofList (Text.afterFirstWord words))

/-- The request as a command string. -/
def display (request : Request) : String :=
  if request.argument.isEmpty then request.action
  else request.action ++ " " ++ request.argument

/-- Two requests ask for the same thing when action and argument agree. -/
def Same (first second : Request) : Prop :=
  first.action = second.action ∧ first.argument = second.argument

instance (first second : Request) : Decidable (Same first second) :=
  inferInstanceAs (Decidable (_ ∧ _))

theorem same_refl (request : Request) : Same request request := ⟨rfl, rfl⟩

theorem Same.symm {first second : Request} (same : Same first second) : Same second first :=
  ⟨same.1.symm, same.2.symm⟩

theorem Same.trans {first second third : Request} (left : Same first second)
    (right : Same second third) : Same first third :=
  ⟨left.1.trans right.1, left.2.trans right.2⟩

end Request

end Menus
