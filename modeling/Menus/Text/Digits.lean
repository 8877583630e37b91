/-!
# Digits

Digits of numbers in any base up to sixteen, as characters. Hexadecimal digits are written small and
read in either case.
-/

namespace Menus.Text

/-- A hexadecimal digit for a number below sixteen. -/
def hexDigit (value : Nat) : Char :=
  if value < 10 then Char.ofNat (48 + value) else Char.ofNat (87 + value)

/-- The number a digit stands for, hexadecimal digits included. -/
def digitValue? (c : Char) : Option Nat :=
  if c.isDigit then some (c.toNat - 48)
  else if 'a' ≤ c ∧ c ≤ 'f' then some (c.toNat - 87)
  else if 'A' ≤ c ∧ c ≤ 'F' then some (c.toNat - 55)
  else none

/-- The digit is one of a base. -/
def isDigitOf (base : Nat) (c : Char) : Bool :=
  match digitValue? c with
  | some value => decide (value < base)
  | none => false

/-- The number that digits of a base write. Characters that are no digits count as zero. -/
def numberOf (base : Nat) (digits : List Char) : Nat :=
  digits.foldl (fun number c => number * base + (digitValue? c).getD 0) 0

/-- Every number below sixteen has a digit that stands for it. -/
theorem digitValue?_hexDigit :
    ∀ value : Fin 16, digitValue? (hexDigit value.val) = some value.val := by
  decide

end Menus.Text
