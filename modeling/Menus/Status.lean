/-!
# Command status

What the application reports about a command: whether it can run now, and, for a command that can
be switched on and off, which of the two it is. Templates carry the status `{}` of a command nobody
has asked about; an expansion replaces it.
-/

namespace Menus

/-- Whether a command can run now. -/
inductive Availability where
  /-- The application does not know the command. -/
  | unknown
  /-- The command exists and cannot run now. -/
  | disabled
  /-- The command can run. -/
  | enabled
deriving DecidableEq, Repr, Inhabited

/-- Availability, and the state of a command that can be switched. -/
structure Status where
  availability : Availability := .unknown
  checked : Option Bool := none
deriving DecidableEq, Repr, Inhabited

namespace Status

/-- A command that can run and has no state. -/
def enabled : Status := { availability := .enabled }

/-- A command that cannot run and has no state. -/
def disabled : Status := { availability := .disabled }

/-- The command can run. -/
def isEnabled (status : Status) : Bool := status.availability == .enabled

/-- The application does not know the command. -/
def isUnknown (status : Status) : Bool := status.availability == .unknown

/-- The status with its switch in the given position. -/
def withChecked (status : Status) (checked : Bool) : Status :=
  { status with checked := some checked }

/-- The status made known: enabled or disabled, the switch as it was. -/
def withEnabled (status : Status) (isEnabled : Bool) : Status :=
  { status with availability := if isEnabled then .enabled else .disabled }

@[simp] theorem isEnabled_withEnabled (status : Status) (isEnabled : Bool) :
    (status.withEnabled isEnabled).isEnabled = isEnabled := by
  cases isEnabled <;> rfl

@[simp] theorem isUnknown_withEnabled (status : Status) (isEnabled : Bool) :
    (status.withEnabled isEnabled).isUnknown = false := by
  cases isEnabled <;> rfl

end Status

end Menus
