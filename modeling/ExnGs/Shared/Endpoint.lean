import ExnGs.Shared.Ccsds

set_option autoImplicit false

-- The typed parser of the endpoints, and what is assumed of CCSDSPack: how it lays a packet out, and
-- that its parsers read that layout.
namespace ExnGs.SpacePacket

open Proto

-- A PUS-C TC secondary header that the library has read.
structure TcHeader where
  serviceType : UInt8
  serviceSubtype : UInt8
  sourceId : UInt64
  acknowledgementFlags : UInt8
  deriving DecidableEq, Repr

structure TcPacket where
  primaryHeader : Header
  secondaryHeader : Option TcHeader
  applicationData : List UInt8
  deriving DecidableEq, Repr

/-- The library with `Packet::deserialize<TcHeader>`, on a packet that has its error control mode set. -/
structure TypedPack extends CcsdsPack where
  deserializeTc : PacketErrorControlMode → List UInt8 → Except Text TcPacket

structure ParsedTc where
  ok : Bool
  pktMeta : PacketMeta
  applicationData : List UInt8
  error : Text
  tcInfo : Option PusCTcInfo
  deriving DecidableEq, Repr

def requestId : List UInt8 → Vector UInt8 4
  | b0 :: b1 :: b2 :: b3 :: _ => #v[b0, b1, b2, b3]
  | _ => #v[0, 0, 0, 0]

-- `tcInfo` is `none` for a null pointer, and otherwise what it points to.
def parsePusCTc (lib : TypedPack) (now : UInt64) (packet : List UInt8)
    (tcInfo : Option PusCTcInfo) : ParsedTc :=
  let m : PacketMeta := { tsNs := now }
  match lib.deserializeTc .CRC16 packet with
  | .error message =>
    { ok := false, pktMeta := m, applicationData := []
      error := setError "parse PUS-C TC" message, tcInfo }
  | .ok parsed =>
    let m := fillPrimaryMeta parsed.primaryHeader m
    match parsed.secondaryHeader with
    | none =>
      { ok := false, pktMeta := m, applicationData := []
        error := text "parse PUS-C TC: secondary header is missing", tcInfo }
    | some secondary =>
      let info : PusCTcInfo :=
        { sourceId := secondary.sourceId.toUInt16
          acknowledgementFlags := secondary.acknowledgementFlags
          requestId := requestId packet }
      { ok := true
        pktMeta := { m with svc := secondary.serviceType, ssvc := secondary.serviceSubtype }
        applicationData := parsed.applicationData, error := []
        tcInfo := tcInfo.map fun _ => info }

-- The widths of the fields of a primary header.
structure Header.Fits (h : Header) : Prop where
  versionNumber : h.versionNumber.toNat < 2 ^ 3
  type : h.type.toNat < 2
  secondaryHeaderFlag : h.secondaryHeaderFlag.toNat < 2
  apid : h.apid.toNat < 2 ^ 11
  sequenceFlags : h.sequenceFlags.toNat < 2 ^ 2
  sequenceCount : h.sequenceCount.toNat < 2 ^ 14

def Header.octets (h : Header) : List UInt8 :=
  BigEndian.bytes 2 (h.versionNumber.toNat * 2 ^ 13 + h.type.toNat * 2 ^ 12 +
      h.secondaryHeaderFlag.toNat * 2 ^ 11 + h.apid.toNat) ++
    BigEndian.bytes 2 (h.sequenceFlags.toNat * 2 ^ 14 + h.sequenceCount.toNat) ++
    BigEndian.bytes 2 h.dataLength.toNat

namespace SecondaryHeader

def octets : SecondaryHeader → List UInt8
  | .tc service subservice sourceId acknowledgementFlags =>
    [0x20 ||| acknowledgementFlags, service, subservice] ++ BigEndian.bytes 2 sourceId.toNat
  | .tm _ service subservice messageTypeCounter destinationId timeReferenceStatus time =>
    [0x20 ||| timeReferenceStatus, service, subservice] ++
      BigEndian.bytes 2 messageTypeCounter.toNat ++ BigEndian.bytes 2 destinationId.toNat ++
      BigEndian.bytes 4 time.coarse.toNat ++ BigEndian.bytes 2 time.fine.toNat

def packetType : SecondaryHeader → UInt8
  | .tc .. => 1
  | .tm .. => 0

def service : SecondaryHeader → UInt8 × UInt8
  | .tc service subservice .. => (service, subservice)
  | .tm _ service subservice .. => (service, subservice)

-- Flags and status of four bits, and for a TM the tailoring of this profile.
def InProfile : SecondaryHeader → Prop
  | .tc _ _ _ acknowledgementFlags => acknowledgementFlags < 16
  | .tm tailoring _ _ _ _ timeReferenceStatus _ =>
    tailoring = exnTmTailoring ∧ timeReferenceStatus < 16

end SecondaryHeader

-- What has been set of a packet.
structure PacketView where
  updateEnabled : Bool := false
  errorControl : Option PacketErrorControlMode := none
  versionNumber : UInt8 := 0
  apid : UInt16 := 0
  sequenceFlags : Option SequenceFlags := none
  sequenceCount : UInt16 := 0
  secondary : Option SecondaryHeader := none
  applicationData : List UInt8 := []
  deriving DecidableEq, Repr

def PacketView.primary (v : PacketView) (pus : SecondaryHeader) (dataLength : UInt16) : Header :=
  { versionNumber := v.versionNumber, type := pus.packetType, secondaryHeaderFlag := 1
    apid := v.apid, sequenceFlags := 3, sequenceCount := v.sequenceCount, dataLength }

-- The octets of a packet before its checksum.
def body (h : Header) (pus : SecondaryHeader) (applicationData : List UInt8) : List UInt8 :=
  h.octets ++ pus.octets ++ applicationData

def withChecksum (crc : List UInt8 → UInt16) (octets : List UInt8) : List UInt8 :=
  octets ++ BigEndian.bytes 2 (crc octets).toNat

/-- The assumptions made of CCSDSPack. Setters that succeed set their field and have checked its width,
`serialize` lays out what was set, and the parsers read the fields of what is laid out so. -/
structure Documented (lib : TypedPack) where
  view : lib.Packet → PacketView
  crc : List UInt8 → UInt16
  new : (view lib.newPacket).applicationData = []
  update : ∀ p enable,
    view (lib.setUpdatePacketEnable p enable) = { view p with updateEnabled := enable }
  errorControl : ∀ p mode,
    view (lib.setPacketErrorControlMode p mode) = { view p with errorControl := some mode }
  version : ∀ p q version, lib.setVersionNumber p version = .ok q →
    view q = { view p with versionNumber := version }
  apid : ∀ p q apid, lib.setAPID p apid = .ok q →
    apid.toNat < 2 ^ 11 ∧ view q = { view p with apid }
  sequenceFlags : ∀ p flags,
    view (lib.setSequenceFlags p flags) = { view p with sequenceFlags := some flags }
  sequenceCount : ∀ p q count, lib.setSequenceCount p count = .ok q →
    count.toNat < 2 ^ 14 ∧ view q = { view p with sequenceCount := count }
  secondary : ∀ p q pus, lib.setSecondaryHeader p pus = .ok q →
    view q = { view p with secondary := some pus }
  applicationData : ∀ p q data, lib.setApplicationData p data = .ok q →
    view q = { view p with applicationData := data }
  serialize : ∀ p pus octets, lib.serialize p = .ok octets →
    (view p).updateEnabled = true → (view p).errorControl = some .CRC16 →
    (view p).sequenceFlags = some .UNSEGMENTED → (view p).secondary = some pus → pus.InProfile →
    ∃ dataLength : UInt16, dataLength.toNat + 7 = octets.length ∧
      octets = withChecksum crc (body ((view p).primary pus dataLength) pus (view p).applicationData)
  declared : ∀ (h : Header) rest, h.Fits → h.versionNumber = 0 →
    lib.declaredPacketSize (h.octets ++ rest) = .ok (7 + h.dataLength.toNat)
  header : ∀ h : Header, h.Fits → lib.deserializeHeader h.octets = .ok h
  tcSize : lib.tcHeaderSize = 5
  tcHeader : ∀ service subservice sourceId flags, flags < 16 →
    lib.deserializeTcHeader (SecondaryHeader.tc service subservice sourceId flags).octets =
      some (service, subservice)
  tmSize : lib.tmHeaderSize exnTmTailoring = 13
  tmHeader : ∀ service subservice counter destination status time, status < 16 →
    lib.deserializeTmHeader exnTmTailoring
        (SecondaryHeader.tm exnTmTailoring service subservice counter destination status time).octets =
      some (service, subservice)
  typed : ∀ (h : Header) service subservice sourceId flags data, h.Fits → h.versionNumber = 0 →
    h.type = 1 → h.secondaryHeaderFlag = 1 → flags < 16 →
    h.dataLength.toNat + 7 =
      (withChecksum crc (body h (.tc service subservice sourceId flags) data)).length →
    lib.deserializeTc .CRC16 (withChecksum crc (body h (.tc service subservice sourceId flags) data)) =
      .ok {
        primaryHeader := h
        secondaryHeader := some
          { serviceType := service, serviceSubtype := subservice, sourceId := sourceId.toUInt64
            acknowledgementFlags := flags }
        applicationData := data }

@[simp] theorem length_octets (h : Header) : h.octets.length = 6 := by
  simp [Header.octets]

theorem length_withChecksum (crc : List UInt8 → UInt16) (octets : List UInt8) :
    (withChecksum crc octets).length = octets.length + 2 := by
  simp [withChecksum]

end ExnGs.SpacePacket
