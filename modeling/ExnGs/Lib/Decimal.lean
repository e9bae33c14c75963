import Mathlib.Data.List.TakeWhile

set_option autoImplicit false

namespace Decimal

def isDigit (b : UInt8) : Bool := 48 ≤ b ∧ b ≤ 57

-- Digits, most significant first; of other bytes the value says nothing.
def value (digits : List UInt8) : Nat := digits.foldl (fun n b => 10 * n + (b.toNat - 48)) 0

def IsNumeral (s : List UInt8) : Prop := s ≠ [] ∧ ∀ b ∈ s, isDigit b = true

instance (s : List UInt8) : Decidable (IsNumeral s) :=
  @instDecidableAnd _ _ _ (List.decidableBAll _ s)

theorem IsNumeral.takeWhile {s : List UInt8} (numeral : IsNumeral s) : s.takeWhile isDigit = s := by
  rw [List.takeWhile_eq_self_iff]
  exact numeral.2

theorem isDigit_bounds {b : UInt8} (digit : isDigit b = true) : 48 ≤ b.toNat ∧ b.toNat ≤ 57 := by
  simpa [isDigit, UInt8.le_iff_toNat_le] using digit

end Decimal
