import Mathlib.Algebra.GroupWithZero.Nat
import Mathlib.Data.List.Basic
import ExnGs.Lib.Decimal
import ExnGs.Shared.Types

set_option autoImplicit false

-- Numbers as `std::to_string` writes them.
namespace ExnGs

theorem number_chars (n : Nat) :
    text (toString n) = (Nat.toDigits 10 n).map fun c => UInt8.ofNat c.toNat := by
  rw [text, Nat.toString_eq_repr, Nat.toList_repr]

theorem toNat_digit {c : Char} (digit : c.isDigit = true) :
    (UInt8.ofNat c.toNat).toNat = c.toNat ∧ 48 ≤ c.toNat ∧ c.toNat ≤ 57 := by
  have bounds : 48 ≤ c.toNat ∧ c.toNat ≤ 57 := by
    simpa [Char.isDigit, UInt32.le_iff_toNat_le] using digit
  refine ⟨?_, bounds⟩
  rw [UInt8.toNat_ofNat']
  omega

theorem isDigit_toDigits {n : Nat} {c : Char} (member : c ∈ Nat.toDigits 10 n) : c.isDigit = true :=
  Nat.isDigit_of_mem_toDigits (by omega) (by omega) member

theorem number_digits (n : Nat) : ∀ b ∈ text (toString n), Decimal.isDigit b = true := by
  intro b member
  rw [number_chars] at member
  obtain ⟨c, written, rfl⟩ := List.mem_map.mp member
  obtain ⟨same, low, high⟩ := toNat_digit (isDigit_toDigits written)
  simp only [Decimal.isDigit, UInt8.le_iff_toNat_le, same, decide_eq_true_eq]
  exact ⟨low, high⟩

theorem value_number (n : Nat) : Decimal.value (text (toString n)) = n := by
  rw [Decimal.value, number_chars, List.foldl_map]
  have same : ∀ m, ∀ c ∈ Nat.toDigits 10 n,
      10 * m + ((UInt8.ofNat c.toNat).toNat - 48) = 10 * m + (c.toNat - '0'.toNat) := by
    intro m c member
    rw [(toNat_digit (isDigit_toDigits member)).1]
    rfl
  rw [List.foldl_ext _ _ 0 same, ← Nat.ofDigitChars_eq_foldl]
  exact Nat.ofDigitChars_toDigits (by omega) (by omega)

theorem length_number {n k : Nat} (width : 0 < k) (small : n < 10 ^ k) :
    (text (toString n)).length ≤ k := by
  rw [number_chars, List.length_map]
  exact (Nat.length_toDigits_le_iff (by omega) width).mpr small

end ExnGs
