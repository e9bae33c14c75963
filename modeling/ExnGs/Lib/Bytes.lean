import Mathlib.Data.Nat.Basic
import Mathlib.Algebra.Order.Group.Nat
import Mathlib.Tactic.Ring

set_option autoImplicit false

namespace BigEndian

def value : List UInt8 → Nat
  | [] => 0
  | b :: bs => b.toNat * 256 ^ bs.length + value bs

def bytes : Nat → Nat → List UInt8
  | 0, _ => []
  | width + 1, n => UInt8.ofNat (n / 256 ^ width) :: bytes width n

@[simp] theorem length_bytes (width n : Nat) : (bytes width n).length = width := by
  induction width with
  | zero => rfl
  | succ width ih => simp [bytes, ih]

theorem value_lt (bs : List UInt8) : value bs < 256 ^ bs.length := by
  induction bs with
  | nil => simp [value]
  | cons b bs ih =>
    have digit : b.toNat ≤ 255 := by have := b.toNat_lt; omega
    calc value (b :: bs) < b.toNat * 256 ^ bs.length + 256 ^ bs.length := by
          simp only [value]; omega
      _ ≤ 255 * 256 ^ bs.length + 256 ^ bs.length := by gcongr
      _ = 256 ^ (b :: bs).length := by rw [List.length_cons, pow_succ]; ring

theorem value_concat (bs : List UInt8) (b : UInt8) : value (bs ++ [b]) = value bs * 256 + b.toNat := by
  induction bs with
  | nil => simp [value]
  | cons first bs ih =>
    rw [List.cons_append, value, value, ih, List.length_append, List.length_singleton, pow_succ]
    ring

theorem value_bytes (width n : Nat) : value (bytes width n) = n % 256 ^ width := by
  induction width with
  | zero => simp [bytes, value, Nat.mod_one]
  | succ width ih =>
    have digit : (UInt8.ofNat (n / 256 ^ width)).toNat = n / 256 ^ width % 256 := by simp
    rw [bytes, value, length_bytes, ih, digit, Nat.pow_succ, Nat.mod_mul, Nat.mul_comm, Nat.add_comm]

theorem value_bytes_of_lt {width n : Nat} (small : n < 256 ^ width) :
    value (bytes width n) = n := by
  rw [value_bytes, Nat.mod_eq_of_lt small]

theorem bytes_mod (width n m : Nat) (same : n % 256 ^ width = m % 256 ^ width) :
    bytes width n = bytes width m := by
  induction width with
  | zero => rfl
  | succ width ih =>
    have digit : n / 256 ^ width % 256 = m / 256 ^ width % 256 := by
      rw [Nat.pow_succ] at same
      rw [← Nat.mod_mul_right_div_self, ← Nat.mod_mul_right_div_self, same]
    have rest : n % 256 ^ width = m % 256 ^ width := by
      rw [Nat.pow_succ] at same
      rw [← Nat.mod_mul_right_mod n, ← Nat.mod_mul_right_mod m, same]
    simp only [bytes, ih rest, List.cons.injEq, and_true]
    apply UInt8.toNat_inj.mp
    simpa using digit

theorem bytes_value (bs : List UInt8) : bytes bs.length (value bs) = bs := by
  induction bs with
  | nil => rfl
  | cons b bs ih =>
    have small := value_lt bs
    have digit : (b.toNat * 256 ^ bs.length + value bs) / 256 ^ bs.length = b.toNat := by
      rw [Nat.mul_comm, Nat.mul_add_div (Nat.pow_pos (by decide)), Nat.div_eq_of_lt small, Nat.add_zero]
    have rest := bytes_mod bs.length (b.toNat * 256 ^ bs.length + value bs) (value bs)
      (by rw [Nat.mul_comm, Nat.mul_add_mod])
    rw [List.length_cons, bytes, value, digit, rest, ih, UInt8.ofNat_toNat]

theorem bytes_injective {width n m : Nat} (small : n < 256 ^ width) (small' : m < 256 ^ width)
    (same : bytes width n = bytes width m) : n = m := by
  rw [← value_bytes_of_lt small, same, value_bytes_of_lt small']

-- Numbers of a fixed width come off the front one by one.
theorem bytes_append_inj {width n m : Nat} {rest rest' : List UInt8} (small : n < 256 ^ width)
    (small' : m < 256 ^ width) (same : bytes width n ++ rest = bytes width m ++ rest') :
    n = m ∧ rest = rest' := by
  have lengths : (bytes width n).length = (bytes width m).length := by
    rw [length_bytes, length_bytes]
  obtain ⟨digits, rests⟩ := List.append_inj same lengths
  exact ⟨bytes_injective small small' digits, rests⟩

end BigEndian

-- Access to a vector through positions; `none` is an access outside of it.
namespace Buffer

variable {α : Type}

def slice (xs : List α) (first last : Nat) : Option (List α) :=
  if first ≤ last ∧ last ≤ xs.length then some ((xs.take last).drop first) else none

def eraseFront (xs : List α) (count : Nat) : Option (List α) :=
  if count ≤ xs.length then some (xs.drop count) else none

theorem slice_inside {xs : List α} {first last : Nat} (order : first ≤ last)
    (inside : last ≤ xs.length) : slice xs first last = some ((xs.take last).drop first) := by
  simp [slice, order, inside]

theorem slice_outside {xs : List α} {first last : Nat} (outside : xs.length < last) :
    slice xs first last = none := by
  simp [slice, outside]

theorem eraseFront_inside {xs : List α} {count : Nat} (inside : count ≤ xs.length) :
    eraseFront xs count = some (xs.drop count) := by
  simp [eraseFront, inside]

end Buffer
