import ExnGs.Shared.Endpoint
import ExnGs.Shared.FramerDecode
import ExnGs.Shared.ReferencePack

set_option autoImplicit false

-- A small library with the typed parser, whose packets are just what has been set of them. It shows that
-- the assumptions made of CCSDSPack can be met together.
namespace ExnGs.SpacePacket.Reference

open Proto

def word (octets : List UInt8) (i : Nat) : Nat := BigEndian.value ((octets.drop (2 * i)).take 2)

def readHeader (octets : List UInt8) : Header where
  versionNumber := UInt8.ofNat (word octets 0 / 2 ^ 13)
  type := UInt8.ofNat (word octets 0 / 2 ^ 12 % 2)
  secondaryHeaderFlag := UInt8.ofNat (word octets 0 / 2 ^ 11 % 2)
  apid := UInt16.ofNat (word octets 0 % 2 ^ 11)
  sequenceFlags := UInt8.ofNat (word octets 1 / 2 ^ 14)
  sequenceCount := UInt16.ofNat (word octets 1 % 2 ^ 14)
  dataLength := UInt16.ofNat (word octets 2)

def readDeclaredSize (octets : List UInt8) : Except Text Nat :=
  if octets.length < 6 then .error (text "primary header is incomplete")
  else if (readHeader octets).versionNumber = 0 then .ok (7 + (readHeader octets).dataLength.toNat)
  else .error (text "unsupported packet version")

def serializeView (v : PacketView) : Except Text (List UInt8) :=
  match v.secondary with
  | none => .error (text "secondary header is missing")
  | some pus =>
    let size := 6 + pus.octets.length + v.applicationData.length + 2
    if v.updateEnabled = false ∨ v.errorControl = none ∨ v.sequenceFlags = none then
      .error (text "packet is not prepared")
    else if 65542 < size then .error (text "packet data field is too long")
    else .ok (withChecksum crc16 (body (v.primary pus (UInt16.ofNat (size - 7))) pus v.applicationData))

def readTc (octets : List UInt8) : Except Text TcPacket :=
  let front := octets.take (octets.length - 2)
  match front.drop 6 with
  | first :: service :: subservice :: rest =>
    let h := readHeader octets
    if octets ≠ withChecksum crc16 front then .error (text "checksum mismatch")
    else if h.versionNumber ≠ 0 ∨ h.type ≠ 1 ∨ h.secondaryHeaderFlag ≠ 1 ∨
        h.dataLength.toNat + 7 ≠ octets.length ∨ first >>> 4 ≠ 2 ∨ rest.length < 2 then
      .error (text "not a PUS-C TC")
    else .ok {
      primaryHeader := h
      secondaryHeader := some
        { serviceType := service, serviceSubtype := subservice
          sourceId := UInt64.ofNat (BigEndian.value (rest.take 2))
          acknowledgementFlags := first &&& 0x0F }
      applicationData := rest.drop 2 }
  | _ => .error (text "packet is too short")

def typedPack : TypedPack where
  declaredPacketSize := readDeclaredSize
  deserializeHeader := fun octets =>
    if octets.length = 6 then .ok (readHeader octets)
    else .error (text "a primary header has six octets")
  tcHeaderSize := 5
  deserializeTcHeader := deserializeService 5
  tmHeaderSize := fun _ => 13
  deserializeTmHeader := fun _ => deserializeService 13
  Packet := PacketView
  newPacket := {}
  setUpdatePacketEnable := fun v updateEnabled => { v with updateEnabled }
  setPacketErrorControlMode := fun v mode => { v with errorControl := some mode }
  setVersionNumber := fun v versionNumber =>
    if 7 < versionNumber then .error (text "version number exceeds 3 bits")
    else .ok { v with versionNumber }
  setAPID := fun v apid =>
    if apid.toNat < 2 ^ 11 then .ok { v with apid } else .error (text "APID exceeds 11 bits")
  setSequenceFlags := fun v flags => { v with sequenceFlags := some flags }
  setSequenceCount := fun v sequenceCount =>
    if sequenceCount.toNat < 2 ^ 14 then .ok { v with sequenceCount }
    else .error (text "sequence count exceeds 14 bits")
  setSecondaryHeader := fun v pus => .ok { v with secondary := some pus }
  setApplicationData := fun v applicationData => .ok { v with applicationData }
  serialize := serializeView
  deserializeTc := fun _ => readTc

theorem words_octets (h : Header) (fits : h.Fits) (rest : List UInt8) :
    word (h.octets ++ rest) 0 = h.versionNumber.toNat * 2 ^ 13 + h.type.toNat * 2 ^ 12 +
        h.secondaryHeaderFlag.toNat * 2 ^ 11 + h.apid.toNat ∧
      word (h.octets ++ rest) 1 = h.sequenceFlags.toNat * 2 ^ 14 + h.sequenceCount.toNat ∧
      word (h.octets ++ rest) 2 = h.dataLength.toNat := by
  obtain ⟨version, type, flag, apid, flags, count⟩ := fits
  have length := h.dataLength.toNat_lt
  refine ⟨?_, ?_, ?_⟩
  · rw [word, Header.octets, List.append_assoc, List.append_assoc, Nat.mul_zero, List.drop_zero,
      List.take_left' (BigEndian.length_bytes 2 _), BigEndian.value_bytes_of_lt (by omega)]
  · rw [word, Nat.mul_one, Header.octets, List.append_assoc, List.append_assoc,
      List.drop_left' (BigEndian.length_bytes 2 _), List.take_left' (BigEndian.length_bytes 2 _),
      BigEndian.value_bytes_of_lt (by omega)]
  · rw [word, show 2 * 2 = 4 from rfl, Header.octets, List.append_assoc, List.drop_left' (by simp),
      List.take_left' (BigEndian.length_bytes 2 _), BigEndian.value_bytes_of_lt (by omega)]

theorem readHeader_octets {h : Header} (fits : h.Fits) (rest : List UInt8) :
    readHeader (h.octets ++ rest) = h := by
  obtain ⟨first, second, third⟩ := words_octets h fits rest
  obtain ⟨version, type, flag, apid, flags, count⟩ := fits
  rw [readHeader, first, second, third]
  have versionField : (h.versionNumber.toNat * 2 ^ 13 + h.type.toNat * 2 ^ 12 +
      h.secondaryHeaderFlag.toNat * 2 ^ 11 + h.apid.toNat) / 2 ^ 13 = h.versionNumber.toNat := by omega
  have typeField : (h.versionNumber.toNat * 2 ^ 13 + h.type.toNat * 2 ^ 12 +
      h.secondaryHeaderFlag.toNat * 2 ^ 11 + h.apid.toNat) / 2 ^ 12 % 2 = h.type.toNat := by omega
  have flagField : (h.versionNumber.toNat * 2 ^ 13 + h.type.toNat * 2 ^ 12 +
      h.secondaryHeaderFlag.toNat * 2 ^ 11 + h.apid.toNat) / 2 ^ 11 % 2 =
        h.secondaryHeaderFlag.toNat := by omega
  have apidField : (h.versionNumber.toNat * 2 ^ 13 + h.type.toNat * 2 ^ 12 +
      h.secondaryHeaderFlag.toNat * 2 ^ 11 + h.apid.toNat) % 2 ^ 11 = h.apid.toNat := by omega
  have flagsField : (h.sequenceFlags.toNat * 2 ^ 14 + h.sequenceCount.toNat) / 2 ^ 14 =
      h.sequenceFlags.toNat := by
    rw [Nat.add_comm, Nat.add_mul_div_right _ _ (by decide), Nat.div_eq_of_lt count, Nat.zero_add]
  have countField : (h.sequenceFlags.toNat * 2 ^ 14 + h.sequenceCount.toNat) % 2 ^ 14 =
      h.sequenceCount.toNat := by
    rw [Nat.add_comm, Nat.add_mul_mod_self_right, Nat.mod_eq_of_lt count]
  simp only [versionField, typeField, flagField, apidField, flagsField, countField,
    UInt8.ofNat_toNat, UInt16.ofNat_toNat]

-- The fields are read from the first six octets.
theorem word_take (octets : List UInt8) {i : Nat} (inside : i ≤ 2) :
    word (octets.take 6) i = word octets i := by
  rw [word, word, List.drop_take, List.take_take, Nat.min_eq_left (by omega)]

theorem readHeader_take (octets : List UInt8) : readHeader (octets.take 6) = readHeader octets := by
  have first := word_take octets (Nat.zero_le 2)
  have second := word_take octets (Nat.le_succ 1)
  have third := word_take octets (Nat.le_refl 2)
  rw [readHeader, readHeader, first, second, third]

theorem typed_dependsOnHeader : Framer.DependsOnHeader typedPack.declaredPacketSize := by
  intro octets long
  have length : (octets.take 6).length = 6 := List.length_take_of_le long
  simp only [typedPack, readDeclaredSize, readHeader_take, length, Nat.lt_irrefl, if_false,
    Nat.not_lt.mpr long]

theorem typed_declaresLength : Framer.DeclaresLength typedPack.declaredPacketSize := by
  intro octets size declared
  simp only [typedPack, readDeclaredSize] at declared
  split at declared
  next => cases declared
  next =>
    split at declared
    next =>
      cases declared
      have small := BigEndian.value_lt ((octets.drop 4).take 2)
      have width : ((octets.drop 4).take 2).length ≤ 2 := List.length_take_le 2 _
      have bound : 256 ^ ((octets.drop 4).take 2).length ≤ 256 ^ 2 :=
        Nat.pow_le_pow_right (by decide) width
      simp only [readHeader, word, UInt16.toNat_ofNat', Nat.reduceMul]
      omega
    next => cases declared

theorem typed_parsesHeader : ParsesHeader typedPack.toCcsdsPack := by
  intro octets size six _
  refine ⟨readHeader octets, by simp [typedPack, six], ?_⟩
  have small := BigEndian.value_lt ((octets.drop 4).take 2)
  have width : ((octets.drop 4).take 2).length = 2 := by simp [six]
  rw [width] at small
  exact Nat.mod_eq_of_lt small

theorem flags_nibbles {flags : UInt8} (small : flags < 16) :
    (0x20 ||| flags) >>> 4 = 2 ∧ (0x20 ||| flags) &&& 0x0F = flags := by
  have bound : flags.toNat < 16 := by simpa [UInt8.lt_iff_toNat_lt] using small
  have sum : 32 ||| flags.toNat = 32 + flags.toNat := or_shift 2 flags.toNat 4 (by omega)
  constructor
  · apply UInt8.toNat_inj.mp
    rw [UInt8.toNat_shiftRight, UInt8.toNat_or]
    simp only [UInt8.reduceToNat, Nat.reduceMod, sum, Nat.shiftRight_eq_div_pow]
    omega
  · apply UInt8.toNat_inj.mp
    rw [UInt8.toNat_and, UInt8.toNat_or]
    simp only [UInt8.reduceToNat, sum]
    rw [show (15 : Nat) = 2 ^ 4 - 1 from rfl, Nat.and_two_pow_sub_one_eq_mod]
    omega

theorem deserializeService_octets {size : Nat} {first service subservice : UInt8} {rest : List UInt8}
    (length : rest.length + 3 = size) (nibble : first >>> 4 = 2) :
    deserializeService size (first :: service :: subservice :: rest) = some (service, subservice) := by
  simp [deserializeService, ← length, nibble]

theorem serializeView_layout {v : PacketView} {pus : SecondaryHeader} {octets : List UInt8}
    (serialized : serializeView v = .ok octets) (secondary : v.secondary = some pus) :
    ∃ dataLength : UInt16, dataLength.toNat + 7 = octets.length ∧
      octets = withChecksum crc16 (body (v.primary pus dataLength) pus v.applicationData) := by
  simp only [serializeView, secondary] at serialized
  split at serialized
  next => cases serialized
  next =>
    split at serialized
    next => cases serialized
    next fits =>
      cases serialized
      refine ⟨_, ?_, rfl⟩
      rw [length_withChecksum, UInt16.toNat_ofNat', Nat.mod_eq_of_lt (by omega)]
      simp only [body, List.length_append, length_octets] at fits ⊢
      have header : 5 ≤ pus.octets.length := by
        cases pus <;> simp [SecondaryHeader.octets]
      omega

theorem readTc_layout {h : Header} {service subservice : UInt8} {sourceId : UInt16} {flags : UInt8}
    {data : List UInt8} (fits : h.Fits) (version : h.versionNumber = 0) (type : h.type = 1)
    (flag : h.secondaryHeaderFlag = 1) (profile : flags < 16)
    (length : h.dataLength.toNat + 7 =
      (withChecksum crc16 (body h (.tc service subservice sourceId flags) data)).length) :
    readTc (withChecksum crc16 (body h (.tc service subservice sourceId flags) data)) =
      .ok {
        primaryHeader := h
        secondaryHeader := some
          { serviceType := service, serviceSubtype := subservice, sourceId := sourceId.toUInt64
            acknowledgementFlags := flags }
        applicationData := data } := by
  obtain ⟨nibble, low⟩ := flags_nibbles profile
  have front : (withChecksum crc16 (body h (.tc service subservice sourceId flags) data)).take
      ((withChecksum crc16 (body h (.tc service subservice sourceId flags) data)).length - 2) =
      body h (.tc service subservice sourceId flags) data := by
    rw [length_withChecksum, Nat.add_sub_cancel, withChecksum, List.take_left]
  have behind : (body h (.tc service subservice sourceId flags) data).drop 6 =
      (0x20 ||| flags) :: service :: subservice :: (BigEndian.bytes 2 sourceId.toNat ++ data) := by
    rw [body, List.append_assoc, List.drop_left' (length_octets h)]
    rfl
  have header : readHeader (withChecksum crc16 (body h (.tc service subservice sourceId flags) data)) =
      h := by
    rw [withChecksum, body, List.append_assoc, List.append_assoc]
    exact readHeader_octets fits _
  have source : BigEndian.value ((BigEndian.bytes 2 sourceId.toNat ++ data).take 2) =
      sourceId.toNat := by
    rw [List.take_left' (BigEndian.length_bytes 2 _), BigEndian.value_bytes_of_lt sourceId.toNat_lt]
  have rest : (BigEndian.bytes 2 sourceId.toNat ++ data).drop 2 = data :=
    List.drop_left' (BigEndian.length_bytes 2 _)
  have refused : ¬ (h.versionNumber ≠ 0 ∨ h.type ≠ 1 ∨ h.secondaryHeaderFlag ≠ 1 ∨
      h.dataLength.toNat + 7 ≠
        (withChecksum crc16 (body h (.tc service subservice sourceId flags) data)).length ∨
      (0x20 ||| flags) >>> 4 ≠ 2 ∨ (BigEndian.bytes 2 sourceId.toNat ++ data).length < 2) := by
    have enough : 2 ≤ (BigEndian.bytes 2 sourceId.toNat ++ data).length := by
      rw [List.length_append, BigEndian.length_bytes]
      exact Nat.le_add_right 2 _
    simp only [version, type, flag, length, nibble, ne_eq, not_true_eq_false, false_or]
    exact Nat.not_lt.mpr enough
  have widened : UInt64.ofNat sourceId.toNat = sourceId.toUInt64 := by
    apply UInt64.toNat_inj.mp
    rw [UInt64.toNat_ofNat', UInt16.toNat_toUInt64]
    exact Nat.mod_eq_of_lt (Nat.lt_trans sourceId.toNat_lt (by decide))
  simp only [readTc, front, behind, header]
  rw [if_neg (by simp), if_neg refused]
  simp only [source, rest, low, widened]

theorem deserializeTc_eq (mode : PacketErrorControlMode) (octets : List UInt8) :
    typedPack.deserializeTc mode octets = readTc octets := rfl

-- What the parts of the library do is what is assumed of CCSDSPack.
def documented : Documented typedPack where
  view := id
  crc := crc16
  new := rfl
  update := fun _ _ => rfl
  errorControl := fun _ _ => rfl
  version := by
    intro p q version done
    simp only [typedPack] at done
    split at done
    next => cases done
    next => cases done; rfl
  apid := by
    intro p q apid done
    simp only [typedPack] at done
    split at done
    next fits => cases done; exact ⟨fits, rfl⟩
    next => cases done
  sequenceFlags := fun _ _ => rfl
  sequenceCount := by
    intro p q count done
    simp only [typedPack] at done
    split at done
    next fits => cases done; exact ⟨fits, rfl⟩
    next => cases done
  secondary := by
    intro p q pus done
    cases done
    rfl
  applicationData := by
    intro p q data done
    cases done
    rfl
  serialize := fun p pus octets done _ _ _ secondary _ => serializeView_layout done secondary
  declared := by
    intro h rest fits version
    simp only [typedPack, readDeclaredSize, readHeader_octets fits, version, if_true]
    rw [if_neg (by simp)]
  header := by
    intro h fits
    have read := readHeader_octets fits []
    rw [List.append_nil] at read
    simp only [typedPack, length_octets, if_true, read]
  tcSize := rfl
  tcHeader := fun service subservice sourceId flags small =>
    deserializeService_octets (by simp) (flags_nibbles small).1
  tmSize := rfl
  tmHeader := fun service subservice counter destination status time small =>
    deserializeService_octets (by simp) (flags_nibbles small).1
  typed := by
    intro h service subservice sourceId flags data fits version type flag small length
    rw [deserializeTc_eq]
    exact readTc_layout fits version type flag small length

end ExnGs.SpacePacket.Reference
