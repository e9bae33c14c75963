import ExnGs.Shared.ProtocolDecode

set_option autoImplicit false

namespace ExnGs.Proto

open Buffer

-- The payload starts with a whole string, counting in natural numbers.
def HoldsString (p : List UInt8) : Prop :=
  4 ≤ p.length ∧ 4 + lengthField p ≤ p.length

instance (p : List UInt8) : Decidable (HoldsString p) := by
  unfold HoldsString; infer_instance

def stringOf (p : List UInt8) : Text := (p.take (4 + lengthField p)).drop 4

theorem unpackString_string (p : List UInt8) (s : Text) (holds : HoldsString p) :
    unpackString p s = some (true, stringOf p) := by
  obtain ⟨long, whole⟩ := holds
  obtain ⟨n, read, value⟩ := readU32_lengthField p long
  have notShort : ¬ p.length < 4 := by omega
  have passes : ¬ p.length < (4 + n).toNat := by
    rw [UInt32.toNat_add, value]
    have := Nat.mod_le (4 + lengthField p) (2 ^ 32)
    simp only [UInt32.reduceToNat]
    omega
  have chars := slice_inside (show 4 ≤ 4 + lengthField p by omega) whole
  simp only [unpackString, notShort, if_false, read, Option.bind_eq_bind, Option.bind_some, passes,
    value, chars, Option.pure_def, stringOf]

theorem unpackString_wait (p : List UInt8) (s : Text) (incomplete : ¬ HoldsString p)
    (safe : ¬ Overruns p) : unpackString p s = some (false, s) := by
  by_cases short : p.length < 4
  · simp [unpackString, short]
  · obtain ⟨n, read, value⟩ := readU32_lengthField p (by omega)
    have waiting : p.length < (4 + n).toNat := by
      rw [UInt32.toNat_add, value]
      simp only [HoldsString, Overruns, UInt32.reduceToNat] at *
      omega
    simp only [unpackString, short, if_false, read, Option.bind_eq_bind, Option.bind_some,
      if_pos waiting, Option.pure_def]

theorem unpackString_overrun (p : List UInt8) (s : Text) (overruns : Overruns p) :
    unpackString p s = none := by
  obtain ⟨long, wraps, outside⟩ := overruns
  obtain ⟨n, read, value⟩ := readU32_lengthField p long
  have small := lengthField_lt p
  have notShort : ¬ p.length < 4 := by omega
  have passes : ¬ p.length < (4 + n).toNat := by
    rw [UInt32.toNat_add, value]
    simp only [UInt32.reduceToNat]
    omega
  rw [← value] at outside
  simp only [unpackString, notShort, if_false, read, Option.bind_eq_bind, Option.bind_some, passes,
    slice_outside outside, Option.bind_none]

theorem packString_bytes (s : Text) (fits : s.length < 2 ^ 32) :
    packString s = BigEndian.bytes 4 s.length ++ s := by
  have size : (UInt32.ofNat s.length).toNat = s.length := by
    rw [UInt32.toNat_ofNat', Nat.mod_eq_of_lt fits]
  rw [packString, appendU32_bytes, List.nil_append, size]

theorem lengthField_packString (s : Text) (fits : s.length < 2 ^ 32) :
    lengthField (packString s) = s.length := by
  rw [packString_bytes s fits, lengthField, List.take_left' (BigEndian.length_bytes 4 _),
    BigEndian.value_bytes_of_lt (by omega)]

theorem holdsString_packString (s : Text) (fits : s.length < 2 ^ 32) :
    HoldsString (packString s) := by
  have field := lengthField_packString s fits
  have length : (packString s).length = 4 + s.length := by
    rw [packString_bytes s fits, List.length_append, BigEndian.length_bytes]
  exact ⟨by omega, by omega⟩

theorem stringOf_packString (s : Text) (fits : s.length < 2 ^ 32) : stringOf (packString s) = s := by
  have bytes := packString_bytes s fits
  have length : (packString s).length = 4 + s.length := by
    rw [bytes, List.length_append, BigEndian.length_bytes]
  rw [stringOf, lengthField_packString s fits, ← length, List.take_length, bytes,
    List.drop_left' (BigEndian.length_bytes 4 _)]

theorem unpackString_packString (s old : Text) (fits : s.length < 2 ^ 32) :
    unpackString (packString s) old = some (true, s) := by
  rw [unpackString_string _ old (holdsString_packString s fits), stringOf_packString s fits]

/-- `unpack_string` stays inside the payload, succeeds exactly on a whole string, which it then
assigns, and otherwise leaves `s` alone. -/
def UnpacksExactly (p : List UInt8) (s : Text) : Prop :=
  ∃ ok s', unpackString p s = some (ok, s') ∧
    (ok = true ↔ HoldsString p) ∧
    (ok = true → s' = stringOf p) ∧
    (ok = false → s' = s)

theorem unpackString_exact_iff (p : List UInt8) (s : Text) :
    (UnpacksExactly p s ↔
      (4 ≤ p.length → 4 + lengthField p < 2 ^ 32 ∨ 4 + lengthField p ≤ p.length)) ∧
    (s.length < 2 ^ 32 - 4 → ∀ old, unpackString (packString s) old = some (true, s)) := by
  refine ⟨⟨?_, fun safe => ?_⟩, fun fits old => ?_⟩
  · rintro ⟨ok, s', result, _⟩ long
    by_contra overruns
    rw [unpackString_overrun p s ⟨long, by omega, by omega⟩] at result
    contradiction
  · by_cases holds : HoldsString p
    · exact ⟨true, _, unpackString_string p s holds, by simp [holds], by simp, by simp⟩
    · have inside : ¬ Overruns p := by
        rintro ⟨long, wraps, outside⟩
        have := safe long
        omega
      exact ⟨false, _, unpackString_wait p s holds inside, by simp [holds], by simp, by simp⟩
  · exact unpackString_packString s old (by omega)

theorem unpackString_exact_iff_ping :
    UnpacksExactly (packString (text "PING")) (text "PING") ∧
      unpackString (packString (text "PING")) [] = some (true, text "PING") :=
  ⟨(unpackString_exact_iff _ _).1.mpr (by decide), (unpackString_exact_iff [] _).2 (by decide) []⟩

theorem unpackString_wrapped_length : ¬ UnpacksExactly [0xFF, 0xFF, 0xFF, 0xFC] [] := by
  rintro ⟨ok, s', result, _⟩
  have fault : unpackString [0xFF, 0xFF, 0xFF, 0xFC] [] = none := by decide
  rw [fault] at result
  contradiction

end ExnGs.Proto
