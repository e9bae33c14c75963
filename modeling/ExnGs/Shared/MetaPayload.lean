import Mathlib.Data.List.Basic
import ExnGs.Shared.Protocol

set_option autoImplicit false

-- The payload of `PacketRx` and `PacketTx`: 22 bytes of metadata, and a description.
namespace ExnGs.Proto

open Buffer

theorem appendU64_bytes (v : List UInt8) (x : UInt64) :
    appendU64 v x = v ++ BigEndian.bytes 8 x.toNat := by
  simp only [appendU64, BigEndian.bytes, List.append_cancel_left_eq, List.cons.injEq, and_true]
  refine ⟨?_, ?_, ?_, ?_, ?_, ?_, ?_, ?_⟩ <;> apply UInt8.toNat_inj.mp <;>
    simp [Nat.shiftRight_eq_div_pow, byte_mask]

theorem or_byte (high : Nat) (low : UInt8) (width : Nat) :
    high * 2 ^ (width + 8) ||| low.toNat * 2 ^ width = (high * 256 + low.toNat) * 2 ^ width := by
  have small : low.toNat * 2 ^ width < 2 ^ (width + 8) := by
    rw [Nat.pow_add, Nat.mul_comm]
    exact Nat.mul_lt_mul_of_pos_left low.toNat_lt (Nat.two_pow_pos width)
  rw [or_shift _ _ _ small, Nat.pow_add]
  ring

theorem shift_byte (b : UInt8) {width : Nat} (fits : width ≤ 56) :
    b.toNat <<< width % 2 ^ 64 = b.toNat * 2 ^ width := by
  rw [Nat.shiftLeft_eq]
  apply Nat.mod_eq_of_lt
  calc b.toNat * 2 ^ width < 2 ^ 8 * 2 ^ width :=
        Nat.mul_lt_mul_of_pos_right b.toNat_lt (Nat.two_pow_pos width)
    _ = 2 ^ (8 + width) := (Nat.pow_add 2 8 width).symm
    _ ≤ 2 ^ 64 := Nat.pow_le_pow_right (by decide) (by omega)

theorem readU64_value (p : List UInt8) (off : Nat) (inside : off + 8 ≤ p.length) :
    ∃ x, readU64 p off = some x ∧ x.toNat = BigEndian.value ((p.drop off).take 8) := by
  obtain ⟨b0, b1, b2, b3, h0, h1, h2, h3, first⟩ := exists_prefix_four p off (by omega)
  obtain ⟨b4, b5, b6, b7, h4, h5, h6, h7, second⟩ := exists_prefix_four p (off + 4) (by omega)
  have bytes : (p.drop off).take 8 = [b0, b1, b2, b3] ++ [b4, b5, b6, b7] := by
    rw [← first, ← second, ← List.drop_drop, ← List.take_add]
  refine ⟨_, by simp only [readU64, h0, h1, h2, h3, h4, h5, h6, h7]; rfl, ?_⟩
  simp only [UInt64.toNat_or, UInt64.toNat_shiftLeft, UInt8.toNat_toUInt64, UInt64.reduceToNat,
    Nat.reduceMod, shift_byte, Nat.reduceLeDiff, bytes]
  -- Each disjunction adds a byte below all those already placed.
  rw [or_byte b0.toNat b1 48, or_byte _ b2 40, or_byte _ b3 32, or_byte _ b4 24, or_byte _ b5 16,
    or_byte _ b6 8, or_shift _ _ 8 b7.toNat_lt]
  simp only [List.cons_append, List.nil_append, BigEndian.value, List.length_cons, List.length_nil]
  ring

-- The bytes that a field was read from are those it is written as.
theorem readU64_bytes (p : List UInt8) (off : Nat) (inside : off + 8 ≤ p.length) :
    ∃ x, readU64 p off = some x ∧ appendU64 [] x = (p.drop off).take 8 := by
  obtain ⟨x, read, value⟩ := readU64_value p off inside
  have length : ((p.drop off).take 8).length = 8 := by
    rw [List.length_take, List.length_drop]
    omega
  have bytes := BigEndian.bytes_value ((p.drop off).take 8)
  rw [length, ← value] at bytes
  exact ⟨x, read, by rw [appendU64_bytes, bytes, List.nil_append]⟩

theorem readU16_bytes (p : List UInt8) (off : Nat) (inside : off + 2 ≤ p.length) :
    ∃ x, readU16 p off = some x ∧ ∀ v, appendU16 v x = v ++ (p.drop off).take 2 := by
  obtain ⟨x, read, value⟩ := readU16_value p off inside
  have length : ((p.drop off).take 2).length = 2 := by
    rw [List.length_take, List.length_drop]
    omega
  refine ⟨x, read, fun v => ?_⟩
  have bytes := BigEndian.bytes_value ((p.drop off).take 2)
  rw [length, ← value] at bytes
  rw [appendU16_bytes, bytes]

theorem byte_at (p : List UInt8) (off : Nat) (inside : off < p.length) :
    ∃ b, p[off]? = some b ∧ [b] = (p.drop off).take 1 := by
  refine ⟨p[off], by simp, ?_⟩
  rw [List.drop_eq_getElem_cons inside]
  rfl

-- The length of the description, as its field gives it.
def descLength (p : List UInt8) : Nat := BigEndian.value ((p.drop 20).take 2)

-- The vector starts with metadata and a whole description.
def HoldsMeta (p : List UInt8) : Prop := 22 ≤ p.length ∧ 22 + descLength p ≤ p.length

theorem unpackPacketMeta_short {p : List UInt8} (short : p.length < 22) (m : PacketMeta)
    (desc : Text) : unpackPacketMeta p m desc = some (false, m, desc) := if_pos short

/-- On 22 bytes or more all fields are read inside of the vector, and written they are the bytes that
they were read from. -/
theorem unpackPacketMeta_long {p : List UInt8} (long : 22 ≤ p.length) (m : PacketMeta)
    (desc : Text) :
    ∃ read : PacketMeta,
      unpackPacketMeta p m desc =
          (if p.length < 22 + descLength p then some (false, read, desc)
            else some (true, read, (p.take (22 + descLength p)).drop 22)) ∧
        (22 + descLength p ≤ p.length →
          packPacketMeta read ((p.take (22 + descLength p)).drop 22) =
            p.take (22 + descLength p)) := by
  obtain ⟨tsNs, h0, w0⟩ := readU64_bytes p 0 (by omega)
  obtain ⟨ver, h8, w8⟩ := byte_at p 8 (by omega)
  obtain ⟨typ, h9, w9⟩ := byte_at p 9 (by omega)
  obtain ⟨shf, h10, w10⟩ := byte_at p 10 (by omega)
  obtain ⟨seqf, h11, w11⟩ := byte_at p 11 (by omega)
  obtain ⟨apid, h12, w12⟩ := readU16_bytes p 12 (by omega)
  obtain ⟨seq, h14, w14⟩ := readU16_bytes p 14 (by omega)
  obtain ⟨len, h16, w16⟩ := readU16_bytes p 16 (by omega)
  obtain ⟨svc, h18, w18⟩ := byte_at p 18 (by omega)
  obtain ⟨ssvc, h19, w19⟩ := byte_at p 19 (by omega)
  obtain ⟨dlen, h20, w20⟩ := readU16_bytes p 20 (by omega)
  obtain ⟨same, h20', value⟩ := readU16_value p 20 (by omega)
  obtain rfl : dlen = same := Option.some.inj (h20.symm.trans h20')
  have value : dlen.toNat = descLength p := value
  refine ⟨{ tsNs, ver, typ, shf, apid, seqf, seq, len, svc, ssvc }, ?_, fun whole => ?_⟩
  · have notShort : ¬ p.length < 22 := by omega
    simp only [unpackPacketMeta, if_neg notShort, h0, h8, h9, h10, h11, h12, h14, h16, h18, h19, h20,
      Option.bind_eq_bind, Option.bind_some, value, Nat.zero_add, Nat.reduceAdd, Option.pure_def]
    split
    next => rfl
    next whole => rw [slice_inside (Nat.le_add_right 22 _) (by omega), Option.bind_some]
  · have size : UInt16.ofNat ((p.take (22 + descLength p)).drop 22).length = dlen := by
      rw [List.length_drop, List.length_take, Nat.min_eq_left whole, Nat.add_sub_cancel_left, ← value,
        UInt16.ofNat_toNat]
    have join : ∀ off width sum, off + width = sum →
        p.take off ++ (p.drop off).take width = p.take sum := by
      rintro off width _ rfl
      exact List.take_add.symm
    simp only [packPacketMeta, size, w0, w8, w9, w10, w11, w12, w14, w16, w18, w19, w20]
    rw [List.drop_zero, join 8 1 9 rfl, join 9 1 10 rfl, join 10 1 11 rfl, join 11 1 12 rfl,
      join 12 2 14 rfl, join 14 2 16 rfl, join 16 2 18 rfl, join 18 1 19 rfl, join 19 1 20 rfl,
      join 20 2 22 rfl]
    conv => rhs; rw [← List.take_append_drop 22 (p.take (22 + descLength p)), List.take_take,
      Nat.min_eq_left (Nat.le_add_right 22 _)]

theorem unpackPacketMeta_whole {p : List UInt8} (holds : HoldsMeta p) (m : PacketMeta) (desc : Text) :
    ∃ read, unpackPacketMeta p m desc =
        some (true, read, (p.take (22 + descLength p)).drop 22) ∧
      packPacketMeta read ((p.take (22 + descLength p)).drop 22) = p.take (22 + descLength p) := by
  obtain ⟨read, unpacked, packed⟩ := unpackPacketMeta_long holds.1 m desc
  rw [if_neg (Nat.not_lt.mpr holds.2)] at unpacked
  exact ⟨read, unpacked, packed holds.2⟩

theorem unpackPacketMeta_cut {p : List UInt8} (cut : ¬ HoldsMeta p) (m : PacketMeta) (desc : Text) :
    ∃ read, unpackPacketMeta p m desc = some (false, read, desc) := by
  by_cases short : p.length < 22
  · exact ⟨m, unpackPacketMeta_short short m desc⟩
  · obtain ⟨read, unpacked, _⟩ := unpackPacketMeta_long (Nat.le_of_not_lt short) m desc
    have less : p.length < 22 + descLength p := by
      simp only [HoldsMeta, not_and, Nat.not_le] at cut
      exact cut (Nat.le_of_not_lt short)
    rw [if_pos less] at unpacked
    exact ⟨read, unpacked⟩

theorem packPacketMeta_bytes (m : PacketMeta) {desc : Text} (fits : desc.length ≤ 65535) :
    packPacketMeta m desc = BigEndian.bytes 8 m.tsNs.toNat ++ ([m.ver, m.typ, m.shf, m.seqf] ++
      (BigEndian.bytes 2 m.apid.toNat ++ (BigEndian.bytes 2 m.seq.toNat ++
        (BigEndian.bytes 2 m.len.toNat ++ ([m.svc, m.ssvc] ++
          (BigEndian.bytes 2 desc.length ++ desc)))))) := by
  have size : (UInt16.ofNat desc.length).toNat = desc.length := by
    rw [UInt16.toNat_ofNat', Nat.mod_eq_of_lt (by omega)]
  simp only [packPacketMeta, appendU64_bytes, appendU16_bytes, size, List.nil_append,
    List.append_assoc, List.cons_append]

theorem packPacketMeta_injective {m m' : PacketMeta} {desc desc' : Text}
    (fits : desc.length ≤ 65535) (fits' : desc'.length ≤ 65535)
    (same : packPacketMeta m desc = packPacketMeta m' desc') : m = m' ∧ desc = desc' := by
  rw [packPacketMeta_bytes m fits, packPacketMeta_bytes m' fits'] at same
  obtain ⟨tsNs, same⟩ := BigEndian.bytes_append_inj m.tsNs.toNat_lt m'.tsNs.toNat_lt same
  simp only [List.cons_append, List.nil_append, List.cons.injEq] at same
  obtain ⟨ver, typ, shf, seqf, same⟩ := same
  obtain ⟨apid, same⟩ := BigEndian.bytes_append_inj m.apid.toNat_lt m'.apid.toNat_lt same
  obtain ⟨seq, same⟩ := BigEndian.bytes_append_inj m.seq.toNat_lt m'.seq.toNat_lt same
  obtain ⟨len, same⟩ := BigEndian.bytes_append_inj m.len.toNat_lt m'.len.toNat_lt same
  simp only [List.cons.injEq] at same
  obtain ⟨svc, ssvc, same⟩ := same
  obtain ⟨_, rfl⟩ := BigEndian.bytes_append_inj (Nat.lt_succ_of_le fits) (Nat.lt_succ_of_le fits') same
  refine ⟨?_, rfl⟩
  obtain ⟨_, _, _, _, _, _, _, _, _, _⟩ := m
  obtain ⟨_, _, _, _, _, _, _, _, _, _⟩ := m'
  simp only [UInt64.toNat_inj, UInt16.toNat_inj] at *
  subst_vars
  rfl

theorem length_packPacketMeta (m : PacketMeta) {desc : Text} (fits : desc.length ≤ 65535) :
    (packPacketMeta m desc).length = 22 + desc.length := by
  rw [packPacketMeta_bytes m fits]
  simp only [List.length_append, BigEndian.length_bytes, List.length_cons, List.length_nil]
  omega

theorem descLength_packed (m : PacketMeta) {desc : Text} (fits : desc.length ≤ 65535) :
    descLength (packPacketMeta m desc) = desc.length := by
  obtain ⟨header, long, split⟩ : ∃ header, header.length = 20 ∧
      packPacketMeta m desc = header ++ (BigEndian.bytes 2 desc.length ++ desc) := by
    refine ⟨BigEndian.bytes 8 m.tsNs.toNat ++ ([m.ver, m.typ, m.shf, m.seqf] ++
      (BigEndian.bytes 2 m.apid.toNat ++ (BigEndian.bytes 2 m.seq.toNat ++
        (BigEndian.bytes 2 m.len.toNat ++ [m.svc, m.ssvc])))), ?_, ?_⟩
    · simp only [List.length_append, BigEndian.length_bytes, List.length_cons, List.length_nil]
    · simp only [packPacketMeta_bytes m fits, List.append_assoc]
  rw [descLength, split, List.drop_left' long, List.take_left' (BigEndian.length_bytes 2 _),
    BigEndian.value_bytes_of_lt (Nat.lt_succ_of_le fits)]

/-- Every packed payload is unpacked to what was packed; every vector is unpacked inside its bounds,
exactly when it holds metadata and a whole description, and is then the packing of what was read. -/
theorem packet_meta_codec :
    (∀ (m : PacketMeta) (desc : Text), desc.length ≤ 65535 → ∀ old oldDesc,
      unpackPacketMeta (packPacketMeta m desc) old oldDesc = some (true, m, desc)) ∧
    ∀ (p : List UInt8) (old : PacketMeta) (oldDesc : Text), ∃ ok m desc,
      unpackPacketMeta p old oldDesc = some (ok, m, desc) ∧
        (ok = true ↔ 22 ≤ p.length ∧ 22 + descLength p ≤ p.length) ∧
        (ok = true → packPacketMeta m desc = p.take (22 + descLength p)) := by
  refine ⟨fun m desc fits old oldDesc => ?_, fun p old oldDesc => ?_⟩
  · have length := length_packPacketMeta m fits
    have whole : 22 + descLength (packPacketMeta m desc) = (packPacketMeta m desc).length := by
      rw [descLength_packed m fits, length]
    obtain ⟨read, unpacked, packed⟩ :=
      unpackPacketMeta_whole ⟨by omega, Nat.le_of_eq whole⟩ old oldDesc
    rw [whole, List.take_length] at unpacked packed
    have fits' : ((packPacketMeta m desc).drop 22).length ≤ 65535 := by
      rw [List.length_drop, length]
      omega
    obtain ⟨fields, description⟩ := packPacketMeta_injective fits' fits packed
    rw [unpacked, fields, description]
  · by_cases holds : HoldsMeta p
    · obtain ⟨read, unpacked, packed⟩ := unpackPacketMeta_whole holds old oldDesc
      exact ⟨true, read, _, unpacked, iff_of_true rfl holds, fun _ => packed⟩
    · obtain ⟨read, unpacked⟩ := unpackPacketMeta_cut holds old oldDesc
      exact ⟨false, read, oldDesc, unpacked, iff_of_false (by simp) holds, by simp⟩

theorem packet_meta_codec_rx :
    unpackPacketMeta (packPacketMeta { tsNs := 5, typ := 1, apid := 0x100, seq := 7, svc := 3 } (text "RX"))
        {} [] =
      some (true, { tsNs := 5, typ := 1, apid := 0x100, seq := 7, svc := 3 }, text "RX") :=
  packet_meta_codec.1 _ _ (by decide) _ _

end ExnGs.Proto
