import ExnGs.Shared.FramerStream

set_option autoImplicit false

-- The framer and `decode_meta` inspect a packet each for itself; here the two inspections meet.
namespace ExnGs.SpacePacket

open Buffer Proto Framer

/-- A primary header that tells the size of its packet is one the library parses, with the length that
stands in it. -/
def ParsesHeader (lib : CcsdsPack) : Prop :=
  ∀ octets size, octets.length = 6 → lib.declaredPacketSize octets = .ok size →
    ∃ primary, lib.deserializeHeader octets = .ok primary ∧
      primary.dataLength.toNat = BigEndian.value ((octets.drop 4).take 2)

-- No secondary header is read past the end of the packet, and nothing but the service is taken from it.
theorem readService_inside (packet : List UInt8) (headerSize : Nat)
    (deserialize : List UInt8 → Option (UInt8 × UInt8)) (m : PacketMeta) :
    ∃ svc ssvc, readService packet headerSize deserialize m = some { m with svc, ssvc } := by
  unfold readService
  split
  next inside =>
    rw [slice_inside (Nat.le_add_right 6 headerSize) inside]
    simp only [Option.bind_eq_bind, Option.bind_some]
    split
    next service subtype _ => exact ⟨service, subtype, rfl⟩
    next => exact ⟨m.svc, m.ssvc, rfl⟩
  next => exact ⟨m.svc, m.ssvc, rfl⟩

variable {lib : CcsdsPack}

theorem decodeMeta_parsed {packet : List UInt8} {primary : Header} (now : UInt64)
    (declared : lib.declaredPacketSize packet = .ok packet.length) (long : 6 ≤ packet.length)
    (parsed : lib.deserializeHeader (packet.take 6) = .ok primary) :
    ∃ m, decodeMeta lib now packet = some (.ok m) ∧ m.len = primary.dataLength := by
  have octets : slice packet 0 6 = some (packet.take 6) := slice_inside (Nat.zero_le 6) long
  simp only [decodeMeta, declared, ne_eq, not_true_eq_false, if_false, octets, parsed,
    Option.bind_eq_bind, Option.bind_some]
  split
  next => exact ⟨_, rfl, rfl⟩
  next =>
    split
    next =>
      obtain ⟨svc, ssvc, read⟩ := readService_inside packet lib.tcHeaderSize lib.deserializeTcHeader
        (fillPrimaryMeta primary { tsNs := now })
      rw [read]
      exact ⟨_, rfl, rfl⟩
    next =>
      obtain ⟨svc, ssvc, read⟩ := readService_inside packet (lib.tmHeaderSize exnTmTailoring)
        (lib.deserializeTmHeader exnTmTailoring) (fillPrimaryMeta primary { tsNs := now })
      rw [read]
      exact ⟨_, rfl, rfl⟩

/-- A packet of the size that it declares is accepted, however short it is for its secondary header. -/
theorem decodeMeta_whole (header : DependsOnHeader lib.declaredPacketSize)
    (declares : DeclaresLength lib.declaredPacketSize) (parses : ParsesHeader lib)
    {packet : List UInt8} (declared : lib.declaredPacketSize packet = .ok packet.length)
    (now : UInt64) :
    ∃ m, decodeMeta lib now packet = some (.ok m) ∧ m.len.toNat + 7 = packet.length := by
  have long : 6 ≤ packet.length := by
    have size := declares packet _ declared
    omega
  have first : lib.declaredPacketSize (packet.take 6) = .ok packet.length := by
    rw [← header packet long]
    exact declared
  have six : (packet.take 6).length = 6 := List.length_take_of_le long
  obtain ⟨primary, parsed, field⟩ := parses _ _ six first
  obtain ⟨m, accepted, len⟩ := decodeMeta_parsed now declared long parsed
  have size := declares _ _ first
  refine ⟨m, accepted, ?_⟩
  rw [len, field]
  omega

/-- Every packet that a push makes the framer emit is decoded, to metadata of its own length. -/
def DecodesEmitted (lib : CcsdsPack) : Prop :=
  ∀ framer data, ∀ packet ∈ (pushBytes lib.declaredPacketSize framer data).2, ∀ now,
    ∃ m, decodeMeta lib now packet = some (.ok m) ∧ m.len.toNat + 7 = packet.length

theorem decodesEmitted (header : DependsOnHeader lib.declaredPacketSize)
    (declares : DeclaresLength lib.declaredPacketSize) (parses : ParsesHeader lib) :
    DecodesEmitted lib := by
  intro framer data packet emitted now
  have sized := pushBytes_sized header framer data packet emitted
  exact decodeMeta_whole header declares parses sized now

theorem DecodesEmitted.pushAll (decodes : DecodesEmitted lib) (chunks : List (List UInt8))
    (framer : CcsdsFramer) :
    ∀ packet ∈ (Framer.pushAll lib.declaredPacketSize framer chunks).2, ∀ now,
      ∃ m, decodeMeta lib now packet = some (.ok m) ∧ m.len.toNat + 7 = packet.length := by
  induction chunks generalizing framer with
  | nil =>
    intro packet emitted
    cases emitted
  | cons chunk chunks ih =>
    intro packet emitted
    cases List.mem_append.mp emitted with
    | inl now => exact decodes framer chunk packet now
    | inr later => exact ih _ packet later

end ExnGs.SpacePacket

namespace ExnGs.SpacePacket.Reference

open Proto

theorem parsesHeader : ParsesHeader pack := by
  intro octets size six declared
  match octets, six with
  | [b0, b1, b2, b3, b4, b5], _ =>
    obtain ⟨dataLength, read, value⟩ := readU16_value [b0, b1, b2, b3, b4, b5] 4 (Nat.le_refl 6)
    cases read
    exact ⟨_, rfl, value⟩

end ExnGs.SpacePacket.Reference
