import ExnGs.Lib.Segmenter
import ExnGs.Shared.Protocol

set_option autoImplicit false

namespace ExnGs.Proto

open Buffer

def lengthField (buffer : List UInt8) : Nat := BigEndian.value (buffer.take 4)

-- The buffer starts with a whole frame, counting in natural numbers.
def HoldsFrame (buffer : List UInt8) : Prop :=
  4 ≤ buffer.length ∧ 2 ≤ lengthField buffer ∧ 4 + lengthField buffer ≤ buffer.length

instance (buffer : List UInt8) : Decidable (HoldsFrame buffer) := by
  unfold HoldsFrame; infer_instance

def firstFrame (buffer : List UInt8) : Frame :=
  { type := ⟨UInt16.ofNat (BigEndian.value ((buffer.drop 4).take 2))⟩
    payload := (buffer.take (4 + lengthField buffer)).drop 6 }

-- The length field is so large that `4u + len` wraps, and the bytes it names are not there.
def Overruns (buffer : List UInt8) : Prop :=
  4 ≤ buffer.length ∧ 2 ^ 32 ≤ 4 + lengthField buffer ∧ buffer.length < 4 + lengthField buffer

instance (buffer : List UInt8) : Decidable (Overruns buffer) := by
  unfold Overruns; infer_instance

theorem lengthField_lt (buffer : List UInt8) : lengthField buffer < 2 ^ 32 := by
  have small := BigEndian.value_lt (buffer.take 4)
  have width : (buffer.take 4).length ≤ 4 := by simp
  calc lengthField buffer < 256 ^ (buffer.take 4).length := small
    _ ≤ 256 ^ 4 := Nat.pow_le_pow_right (by decide) width
    _ = 2 ^ 32 := by decide

theorem lengthField_append (buffer more : List UInt8) (long : 4 ≤ buffer.length) :
    lengthField (buffer ++ more) = lengthField buffer := by
  rw [lengthField, List.take_append_of_le_length long, lengthField]

theorem readU32_lengthField (buffer : List UInt8) (long : 4 ≤ buffer.length) :
    ∃ len, readU32 buffer 0 = some len ∧ len.toNat = lengthField buffer := by
  simpa [lengthField] using readU32_value buffer 0 (by omega)

theorem tryDecode_short (buffer : List UInt8) (out : Frame) (short : buffer.length < 4) :
    tryDecode buffer out = some (false, buffer, out) := by
  simp [tryDecode, short]

theorem tryDecode_frame (buffer : List UInt8) (out : Frame) (holds : HoldsFrame buffer) :
    tryDecode buffer out =
      some (true, buffer.drop (4 + lengthField buffer), firstFrame buffer) := by
  obtain ⟨long, atLeast, whole⟩ := holds
  obtain ⟨len, read, value⟩ := readU32_lengthField buffer long
  obtain ⟨t, readType, typeValue⟩ := readU16_value buffer 4 (by omega)
  have notShort : ¬ buffer.length < 4 := by omega
  have notMalformed : ¬ len < 2 := by
    rw [UInt32.lt_iff_toNat_lt, value]
    simp only [UInt32.reduceToNat]
    omega
  have passes : ¬ buffer.length < (4 + len).toNat := by
    rw [UInt32.toNat_add, value]
    have := Nat.mod_le (4 + lengthField buffer) (2 ^ 32)
    simp only [UInt32.reduceToNat]
    omega
  have typed : t = UInt16.ofNat (BigEndian.value ((buffer.drop 4).take 2)) := by
    rw [← typeValue, UInt16.ofNat_toNat]
  have payload := slice_inside (show 6 ≤ 4 + lengthField buffer by omega) whole
  simp only [tryDecode, notShort, if_false, read, Option.bind_eq_bind, Option.bind_some,
    notMalformed, passes, readType, value, payload, eraseFront_inside whole, Option.pure_def,
    firstFrame, typed]

theorem tryDecode_wait (buffer : List UInt8) (out : Frame) (incomplete : ¬ HoldsFrame buffer)
    (safe : ¬ Overruns buffer) : tryDecode buffer out = some (false, buffer, out) := by
  by_cases short : buffer.length < 4
  · exact tryDecode_short buffer out short
  · obtain ⟨len, read, value⟩ := readU32_lengthField buffer (by omega)
    simp only [tryDecode, short, if_false, read, Option.bind_eq_bind, Option.bind_some,
      Option.pure_def]
    by_cases malformed : len < 2
    · rw [if_pos malformed]
    · have atLeast : 2 ≤ lengthField buffer := by
        rw [UInt32.lt_iff_toNat_lt, value] at malformed
        simp only [UInt32.reduceToNat] at malformed
        omega
      have sum : (4 + len).toNat = 4 + lengthField buffer := by
        rw [UInt32.toNat_add, value]
        simp only [HoldsFrame, Overruns, UInt32.reduceToNat] at *
        omega
      have waiting : buffer.length < (4 + len).toNat := by
        rw [sum]
        simp only [HoldsFrame] at incomplete
        omega
      rw [if_neg malformed, if_pos waiting]

theorem tryDecode_overrun (buffer : List UInt8) (out : Frame) (overruns : Overruns buffer) :
    tryDecode buffer out = none := by
  obtain ⟨long, wraps, outside⟩ := overruns
  obtain ⟨len, read, value⟩ := readU32_lengthField buffer long
  have small := lengthField_lt buffer
  have notShort : ¬ buffer.length < 4 := by omega
  have notMalformed : ¬ len < 2 := by
    rw [UInt32.lt_iff_toNat_lt, value]; simp only [UInt32.reduceToNat]; omega
  have passes : ¬ buffer.length < (4 + len).toNat := by
    rw [UInt32.toNat_add, value]
    simp only [UInt32.reduceToNat]
    omega
  rw [← value] at outside
  simp only [tryDecode, notShort, if_false, read, Option.bind_eq_bind, Option.bind_some,
    notMalformed, passes, slice_outside outside, Option.bind_none, Option.bind_fun_none]

theorem length_firstFrame_payload (buffer : List UInt8) (holds : HoldsFrame buffer) :
    (firstFrame buffer).payload.length = lengthField buffer - 2 := by
  obtain ⟨_, atLeast, whole⟩ := holds
  simp only [firstFrame, List.length_drop, List.length_take]
  omega

theorem encode_bytes (f : Frame) (fits : 2 + f.payload.length < 2 ^ 32) :
    encode f = BigEndian.bytes 4 (2 + f.payload.length) ++
      BigEndian.bytes 2 f.type.value.toNat ++ f.payload := by
  have size : (2 + UInt32.ofNat f.payload.length).toNat = 2 + f.payload.length := by
    rw [UInt32.toNat_add, UInt32.toNat_ofNat']
    simp only [UInt32.reduceToNat]
    omega
  simp only [encode, appendU16_bytes, appendU32_bytes, List.nil_append, size]

theorem encode_firstFrame (buffer : List UInt8) (holds : HoldsFrame buffer) :
    encode (firstFrame buffer) = buffer.take (4 + lengthField buffer) := by
  have size := length_firstFrame_payload buffer holds
  have small := lengthField_lt buffer
  obtain ⟨long, atLeast, whole⟩ := holds
  have length : BigEndian.bytes 4 (lengthField buffer) = buffer.take 4 := by
    have h := BigEndian.bytes_value (buffer.take 4)
    rwa [List.length_take_of_le long] at h
  have type : BigEndian.bytes 2 (firstFrame buffer).type.value.toNat = (buffer.drop 4).take 2 := by
    have width : ((buffer.drop 4).take 2).length = 2 := by
      simp only [List.length_take, List.length_drop]; omega
    have bound := BigEndian.value_lt ((buffer.drop 4).take 2)
    have h := BigEndian.bytes_value ((buffer.drop 4).take 2)
    rw [width] at bound h
    rw [firstFrame, UInt16.toNat_ofNat', Nat.mod_eq_of_lt (show _ < 2 ^ 16 from bound)]
    exact h
  have header : buffer.take 4 ++ (buffer.drop 4).take 2 = (buffer.take (4 + lengthField buffer)).take 6 := by
    rw [← List.take_add, List.take_take, Nat.min_eq_left (by omega)]
  rw [encode_bytes _ (by omega), size, Nat.add_sub_cancel' atLeast, length, type, header]
  exact List.take_append_drop 6 _

/-- `try_decode` stays inside the buffer, succeeds exactly on a whole frame, splits the buffer into
the encoding of its result and the rest, and otherwise changes nothing. -/
def DecodesExactly (buffer : List UInt8) (out : Frame) : Prop :=
  ∃ ok buffer' out', tryDecode buffer out = some (ok, buffer', out') ∧
    (ok = true ↔ HoldsFrame buffer) ∧
    (ok = true → buffer = encode out' ++ buffer') ∧
    (ok = false → buffer' = buffer ∧ out' = out)

theorem tryDecode_exact_iff (buffer : List UInt8) (out : Frame) :
    DecodesExactly buffer out ↔
      (4 ≤ buffer.length → 4 + lengthField buffer < 2 ^ 32 ∨
        4 + lengthField buffer ≤ buffer.length) := by
  constructor
  · rintro ⟨ok, buffer', out', result, _⟩ long
    by_contra overruns
    rw [tryDecode_overrun buffer out ⟨long, by omega, by omega⟩] at result
    contradiction
  · intro safe
    by_cases holds : HoldsFrame buffer
    · refine ⟨true, _, _, tryDecode_frame buffer out holds, by simp [holds], ?_, by simp⟩
      intro _
      rw [encode_firstFrame buffer holds, List.take_append_drop]
    · have inside : ¬ Overruns buffer := by
        rintro ⟨long, wraps, outside⟩
        have := safe long
        omega
      exact ⟨false, _, _, tryDecode_wait buffer out holds inside, by simp [holds], by simp, by simp⟩

theorem tryDecode_wrapped_length :
    ¬ DecodesExactly [0xFF, 0xFF, 0xFF, 0xFC] { type := MsgType.Hello, payload := [] } := by
  rintro ⟨ok, buffer', out', result, _⟩
  have fault : tryDecode [0xFF, 0xFF, 0xFF, 0xFC]
    { type := MsgType.Hello, payload := [] } = none := by decide
  rw [fault] at result
  contradiction

end ExnGs.Proto
