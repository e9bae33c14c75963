import ExnGs.Shared.Ccsds
import ExnGs.Shared.Framer

set_option autoImplicit false

-- A small library that behaves as CCSDSPack does on the packets of this profile. It shows that the
-- assumptions made of CCSDSPack can be met, and is what the concrete runs below compute with.
namespace ExnGs.SpacePacket.Reference

open Proto

structure Packet where
  apid : UInt16 := 0
  sequenceCount : UInt16 := 0
  secondary : Option SecondaryHeader := none
  applicationData : List UInt8 := []

def declaredPacketSize (data : List UInt8) : Except Text Nat :=
  match data with
  | b0 :: _ :: _ :: _ :: b4 :: b5 :: _ =>
    if b0 >>> 5 = 0 then .ok (7 + BigEndian.value [b4, b5])
    else .error (text "unsupported packet version")
  | _ => .error (text "primary header is incomplete")

def deserializeHeader : List UInt8 → Except Text Header
  | [b0, b1, b2, b3, b4, b5] =>
    .ok {
      versionNumber := b0 >>> 5
      type := (b0 >>> 4) &&& 1
      secondaryHeaderFlag := (b0 >>> 3) &&& 1
      apid := ((b0 &&& 7).toUInt16 <<< 8) ||| b1.toUInt16
      sequenceFlags := b2 >>> 6
      sequenceCount := ((b2 &&& 63).toUInt16 <<< 8) ||| b3.toUInt16
      dataLength := (b4.toUInt16 <<< 8) ||| b5.toUInt16 }
  | _ => .error (text "a primary header has six octets")

def deserializeService (size : Nat) (header : List UInt8) : Option (UInt8 × UInt8) :=
  match header with
  | first :: service :: subservice :: _ =>
    if header.length = size ∧ first >>> 4 = 2 then some (service, subservice) else none
  | _ => none

def crcBit (crc : UInt16) : UInt16 :=
  if crc &&& 0x8000 = 0 then crc <<< 1 else (crc <<< 1) ^^^ 0x1021

def crcByte (crc : UInt16) (byte : UInt8) : UInt16 :=
  Nat.iterate crcBit 8 (crc ^^^ (byte.toUInt16 <<< (8 : UInt16)))

def crc16 (data : List UInt8) : UInt16 := data.foldl crcByte 0xFFFF

def secondaryBytes : SecondaryHeader → List UInt8
  | .tc service subservice sourceId flags =>
    [0x20 ||| flags, service, subservice] ++ BigEndian.bytes 2 sourceId.toNat
  | .tm _ service subservice counter destination status time =>
    [0x20 ||| status, service, subservice] ++ BigEndian.bytes 2 counter.toNat ++
      BigEndian.bytes 2 destination.toNat ++ BigEndian.bytes 4 time.coarse.toNat ++
      BigEndian.bytes 2 time.fine.toNat

def typeBit : SecondaryHeader → UInt16
  | .tc .. => 0x1000
  | .tm .. => 0

def serialize (packet : Packet) : Except Text (List UInt8) :=
  match packet.secondary with
  | none => .error (text "secondary header is missing")
  | some pus =>
    let field := secondaryBytes pus ++ packet.applicationData
    if 65534 < field.length then .error (text "packet data field is too long")
    else
      let octets := BigEndian.bytes 2 (typeBit pus ||| 0x0800 ||| packet.apid).toNat ++
        BigEndian.bytes 2 (0xC000 ||| packet.sequenceCount).toNat ++
        BigEndian.bytes 2 (field.length + 1) ++ field
      .ok (octets ++ BigEndian.bytes 2 (crc16 octets).toNat)

def pack : CcsdsPack where
  declaredPacketSize := declaredPacketSize
  deserializeHeader := deserializeHeader
  tcHeaderSize := 5
  deserializeTcHeader := deserializeService 5
  tmHeaderSize := fun _ => 13
  deserializeTmHeader := fun _ => deserializeService 13
  Packet := Packet
  newPacket := {}
  setUpdatePacketEnable := fun packet _ => packet
  setPacketErrorControlMode := fun packet _ => packet
  setVersionNumber := fun packet version =>
    if version = 0 then .ok packet else .error (text "version number is not supported")
  setAPID := fun packet apid =>
    if 0x7FF < apid then .error (text "APID exceeds 11 bits") else .ok { packet with apid }
  setSequenceFlags := fun packet _ => packet
  setSequenceCount := fun packet sequenceCount =>
    if 0x3FFF < sequenceCount then .error (text "sequence count exceeds 14 bits")
    else .ok { packet with sequenceCount }
  setSecondaryHeader := fun packet pus => .ok { packet with secondary := some pus }
  setApplicationData := fun packet applicationData => .ok { packet with applicationData }
  serialize := serialize

theorem declaredPacketSize_ok {data : List UInt8} {size : Nat}
    (declared : declaredPacketSize data = .ok size) :
    size = 7 + BigEndian.value ((data.drop 4).take 2) := by
  unfold declaredPacketSize at declared
  split at declared
  next =>
    split at declared
    next => cases declared; rfl
    next => cases declared
  next => cases declared

theorem declaresLength : Framer.DeclaresLength pack.declaredPacketSize :=
  fun _ _ declared => declaredPacketSize_ok declared

theorem dependsOnHeader : Framer.DependsOnHeader pack.declaredPacketSize := by
  intro data long
  match data, long with
  | b0 :: b1 :: b2 :: b3 :: b4 :: b5 :: rest, _ => rfl
  | [], long | [_], long | [_, _], long | [_, _, _], long | [_, _, _, _], long
  | [_, _, _, _, _], long => simp at long

example : decodeMeta pack 5 (buildPusCTc pack 0x100 7 3 128 0x10 8 []).packet =
    some (.ok { tsNs := 5, typ := 1, shf := 1, apid := 0x100, seqf := 3, seq := 7, len := 6,
                svc := 3, ssvc := 128 }) := by decide +kernel

end ExnGs.SpacePacket.Reference
