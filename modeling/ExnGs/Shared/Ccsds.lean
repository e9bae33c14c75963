import ExnGs.Shared.Protocol

set_option autoImplicit false

namespace ExnGs.SpacePacket

open Buffer Proto

structure Header where
  versionNumber : UInt8
  type : UInt8
  secondaryHeaderFlag : UInt8
  apid : UInt16
  sequenceFlags : UInt8
  sequenceCount : UInt16
  dataLength : UInt16
  deriving DecidableEq, Repr

inductive PacketErrorControlMode
  | CRC16
  deriving DecidableEq, Repr

inductive SequenceFlags
  | UNSEGMENTED
  deriving DecidableEq, Repr

inductive Epoch
  | AgencyDefined
  deriving DecidableEq, Repr

inductive PFieldMode
  | Implicit
  deriving DecidableEq, Repr

structure CucConfig where
  epoch : Epoch
  pField : PFieldMode
  coarseOctets : Nat
  fineOctets : Nat
  deriving DecidableEq, Repr

structure TmTailoring where
  timestampPresent : Bool
  cuc : CucConfig
  secondaryHeaderSpareOctets : Nat
  deriving DecidableEq, Repr

structure CucTime where
  coarse : UInt64
  fine : UInt64
  deriving DecidableEq, Repr

inductive SecondaryHeader
  | tc (service subservice : UInt8) (sourceId : UInt16) (acknowledgementFlags : UInt8)
  | tm (tailoring : TmTailoring) (service subservice : UInt8)
      (messageTypeCounter destinationId : UInt16) (timeReferenceStatus : UInt8) (time : CucTime)
  deriving DecidableEq, Repr

/-- The calls made into CCSDSPack. An error carries its message; a PUS header that deserialises
carries its service type and subtype. -/
structure CcsdsPack where
  declaredPacketSize : List UInt8 → Except Text Nat
  deserializeHeader : List UInt8 → Except Text Header
  tcHeaderSize : Nat
  deserializeTcHeader : List UInt8 → Option (UInt8 × UInt8)
  tmHeaderSize : TmTailoring → Nat
  deserializeTmHeader : TmTailoring → List UInt8 → Option (UInt8 × UInt8)
  Packet : Type
  newPacket : Packet
  setUpdatePacketEnable : Packet → Bool → Packet
  setPacketErrorControlMode : Packet → PacketErrorControlMode → Packet
  setVersionNumber : Packet → UInt8 → Except Text Packet
  setAPID : Packet → UInt16 → Except Text Packet
  setSequenceFlags : Packet → SequenceFlags → Packet
  setSequenceCount : Packet → UInt16 → Except Text Packet
  setSecondaryHeader : Packet → SecondaryHeader → Except Text Packet
  setApplicationData : Packet → List UInt8 → Except Text Packet
  serialize : Packet → Except Text (List UInt8)

structure PusCTcInfo where
  sourceId : UInt16
  acknowledgementFlags : UInt8
  requestId : Vector UInt8 4
  deriving DecidableEq, Repr

def setError (context : String) (message : Text) : Text := text context ++ text ": " ++ message

def preparePrimary (lib : CcsdsPack) (packet : lib.Packet) (apid sequenceCount : UInt16) :
    Except Text lib.Packet := do
  let packet := lib.setUpdatePacketEnable packet true
  let packet := lib.setPacketErrorControlMode packet .CRC16
  let packet ← (lib.setVersionNumber packet 0).mapError (setError "set CCSDS version")
  let packet ← (lib.setAPID packet apid).mapError (setError "set APID")
  let packet := lib.setSequenceFlags packet .UNSEGMENTED
  (lib.setSequenceCount packet sequenceCount).mapError (setError "set sequence count")

def fillPrimaryMeta (primary : Header) (m : PacketMeta) : PacketMeta :=
  { m with
    ver := primary.versionNumber
    typ := primary.type
    shf := primary.secondaryHeaderFlag
    apid := primary.apid
    seqf := primary.sequenceFlags
    seq := primary.sequenceCount
    len := primary.dataLength }

def exnTmTailoring : TmTailoring :=
  { timestampPresent := true
    cuc := { epoch := .AgencyDefined, pField := .Implicit, coarseOctets := 4, fineOctets := 2 }
    secondaryHeaderSpareOctets := 0 }

def currentExnCuc (ns : UInt64) : CucTime :=
  let kNsPerSecond : UInt64 := 1000000000
  let kFineScale : UInt64 := 65536
  let remainder := ns % kNsPerSecond
  { coarse := ns / kNsPerSecond, fine := (remainder * kFineScale) / kNsPerSecond }

structure Built where
  ok : Bool
  packet : List UInt8
  error : Text
  deriving DecidableEq, Repr

-- `packet` and `error` are cleared first and only the outcome sets one of them.
def Built.of : Except Text (List UInt8) → Built
  | .ok packet => { ok := true, packet, error := [] }
  | .error error => { ok := false, packet := [], error }

-- The steps the two builders share, from the primary header to the serialised packet.
def buildWith (lib : CcsdsPack) (apid sequenceCount : UInt16) (pus : SecondaryHeader)
    (context : String) (applicationData : List UInt8) : Except Text (List UInt8) := do
  let packet ← preparePrimary lib lib.newPacket apid sequenceCount
  let packet ← (lib.setSecondaryHeader packet pus).mapError (setError context)
  let packet ← if applicationData = [] then pure packet else
    (lib.setApplicationData packet applicationData).mapError (setError "set application data")
  (lib.serialize packet).mapError (setError "serialize Space Packet")

def buildPusCTc (lib : CcsdsPack) (apid sequenceCount : UInt16) (service subservice : UInt8)
    (sourceId : UInt16) (acknowledgementFlags : UInt8) (applicationData : List UInt8) : Built :=
  .of (buildWith lib apid sequenceCount
    (.tc service subservice sourceId acknowledgementFlags)
    "set PUS-C TC secondary header" applicationData)

def buildPusCTm (lib : CcsdsPack) (now : UInt64) (apid sequenceCount : UInt16)
    (service subservice : UInt8) (messageTypeCounter destinationId : UInt16)
    (timeReferenceStatus : UInt8) (applicationData : List UInt8) : Built :=
  .of (buildWith lib apid sequenceCount
    (.tm exnTmTailoring service subservice messageTypeCounter destinationId timeReferenceStatus
      (currentExnCuc now))
    "set PUS-C TM secondary header" applicationData)

def readService (packet : List UInt8) (headerSize : Nat)
    (deserialize : List UInt8 → Option (UInt8 × UInt8)) (m : PacketMeta) : Option PacketMeta :=
  if 6 + headerSize ≤ packet.length then do
    let header ← slice packet 6 (6 + headerSize)
    match deserialize header with
    | some (service, subtype) => return { m with svc := service, ssvc := subtype }
    | none => return m
  else some m

-- The metadata or the error text; `none` is a slice outside of the packet.
def decodeMeta (lib : CcsdsPack) (now : UInt64) (packet : List UInt8) :
    Option (Except Text PacketMeta) :=
  match lib.declaredPacketSize packet with
  | .error message => some (.error (setError "inspect Space Packet" message))
  | .ok size =>
    if size ≠ packet.length then
      some (.error (text "Space Packet size does not match CCSDS Packet Data Length"))
    else do
      let primaryBytes ← slice packet 0 6
      match lib.deserializeHeader primaryBytes with
      | .error message => return .error (setError "parse primary header" message)
      | .ok primary =>
        let m := fillPrimaryMeta primary { tsNs := now }
        if m.shf = 0 then return .ok m
        if m.typ = 1 then
          return .ok (← readService packet lib.tcHeaderSize lib.deserializeTcHeader m)
        else
          return .ok (← readService packet (lib.tmHeaderSize exnTmTailoring)
            (lib.deserializeTmHeader exnTmTailoring) m)

theorem decodeMeta_accepts {lib : CcsdsPack} {now : UInt64} {packet : List UInt8} {m : PacketMeta}
    (accepted : decodeMeta lib now packet = some (.ok m)) :
    lib.declaredPacketSize packet = .ok packet.length := by
  unfold decodeMeta at accepted
  split at accepted
  next => simp at accepted
  next size declared =>
    split at accepted
    next => simp at accepted
    next same =>
      rw [declared]
      simpa using same

theorem decodeMeta_long {lib : CcsdsPack} {now : UInt64} {packet : List UInt8} {m : PacketMeta}
    (accepted : decodeMeta lib now packet = some (.ok m)) : 6 ≤ packet.length := by
  have declared := decodeMeta_accepts accepted
  by_contra short
  have outside : slice packet 0 6 = none := slice_outside (by omega)
  simp [decodeMeta, declared, outside] at accepted

theorem readService_stamped (packet : List UInt8) (headerSize : Nat)
    (deserialize : List UInt8 → Option (UInt8 × UInt8)) (m : PacketMeta) (now : UInt64) :
    readService packet headerSize deserialize { m with tsNs := now } =
      (readService packet headerSize deserialize m).map fun m => { m with tsNs := now } := by
  unfold readService
  split
  next inside =>
    rw [slice_inside (Nat.le_add_right 6 headerSize) inside]
    simp only [Option.bind_eq_bind, Option.bind_some]
    split
    next => rfl
    next => rfl
  next => rfl

-- The clock is read for the time stamp alone.
theorem decodeMeta_stamped (lib : CcsdsPack) (earlier now : UInt64) (packet : List UInt8) :
    decodeMeta lib now packet =
      (decodeMeta lib earlier packet).map (Except.map fun m => { m with tsNs := now }) := by
  have filled : ∀ primary : Header, fillPrimaryMeta primary { tsNs := now } =
      { fillPrimaryMeta primary { tsNs := earlier } with tsNs := now } := fun _ => rfl
  unfold decodeMeta
  split
  next => rfl
  next size _ =>
    split
    next => rfl
    next =>
      cases slice packet 0 6 with
      | none => rfl
      | some primaryBytes =>
        simp only [Option.bind_eq_bind, Option.bind_some]
        cases lib.deserializeHeader primaryBytes with
        | error message => rfl
        | ok primary =>
          simp only [filled, readService_stamped]
          generalize fillPrimaryMeta primary { tsNs := earlier } = m
          split
          next => rfl
          next =>
            split
            next => cases readService packet lib.tcHeaderSize lib.deserializeTcHeader m <;> rfl
            next =>
              cases readService packet (lib.tmHeaderSize exnTmTailoring)
                (lib.deserializeTmHeader exnTmTailoring) m <;> rfl

end ExnGs.SpacePacket
