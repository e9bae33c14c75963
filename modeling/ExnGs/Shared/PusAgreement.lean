import ExnGs.Shared.EndpointReference

set_option autoImplicit false

-- The builders, the router's inspection and the endpoint's parser read the same packet alike.
namespace ExnGs.SpacePacket

open Buffer Proto

variable {lib : TypedPack}

theorem bind_ok {ε α β : Type} {x : Except ε α} {f : α → Except ε β} {b : β}
    (done : x >>= f = .ok b) : ∃ a, x = .ok a ∧ f a = .ok b := by
  cases x with
  | error e => cases done
  | ok a => exact ⟨a, rfl, done⟩

theorem mapError_ok {ε ε' α : Type} {x : Except ε α} {f : ε → ε'} {a : α}
    (done : x.mapError f = .ok a) : x = .ok a := by
  cases x with
  | error e => cases done
  | ok b =>
    cases done
    rfl

def primaryOf (apid sequenceCount : UInt16) (pus : SecondaryHeader) (dataLength : UInt16) : Header :=
  { versionNumber := 0, type := pus.packetType, secondaryHeaderFlag := 1, apid, sequenceFlags := 3
    sequenceCount, dataLength }

theorem preparePrimary_view (documented : Documented lib) {apid sequenceCount : UInt16}
    {p q : lib.Packet}
    (prepared : preparePrimary lib.toCcsdsPack p apid sequenceCount = .ok q) :
    apid.toNat < 2 ^ 11 ∧ sequenceCount.toNat < 2 ^ 14 ∧ documented.view q =
      { documented.view p with
        updateEnabled := true, errorControl := some .CRC16, versionNumber := 0, apid
        sequenceFlags := some .UNSEGMENTED, sequenceCount } := by
  obtain ⟨versioned, version, prepared⟩ := bind_ok prepared
  obtain ⟨addressed, address, prepared⟩ := bind_ok prepared
  have version := documented.version _ _ _ (mapError_ok version)
  obtain ⟨apidFits, address⟩ := documented.apid _ _ _ (mapError_ok address)
  obtain ⟨countFits, count⟩ := documented.sequenceCount _ _ _ (mapError_ok prepared)
  refine ⟨apidFits, countFits, ?_⟩
  rw [count, documented.sequenceFlags, address, version, documented.errorControl, documented.update]

/-- What a builder returns is laid out from its arguments, which fit their fields. -/
theorem buildWith_layout (documented : Documented lib) {apid sequenceCount : UInt16}
    {pus : SecondaryHeader} {context : String} {data packet : List UInt8} (profile : pus.InProfile)
    (built : buildWith lib.toCcsdsPack apid sequenceCount pus context data = .ok packet) :
    apid.toNat < 2 ^ 11 ∧ sequenceCount.toNat < 2 ^ 14 ∧ ∃ dataLength : UInt16,
      dataLength.toNat + 7 = packet.length ∧
      packet = withChecksum documented.crc (body (primaryOf apid sequenceCount pus dataLength) pus data) := by
  obtain ⟨prepared, preparing, built⟩ := bind_ok built
  obtain ⟨secondary, setting, built⟩ := bind_ok built
  obtain ⟨apidFits, countFits, view⟩ := preparePrimary_view documented preparing
  have setting := documented.secondary _ _ _ (mapError_ok setting)
  rw [view] at setting
  have filling : ∃ filled, lib.serialize filled = .ok packet ∧
      documented.view filled = { documented.view secondary with applicationData := data } := by
    simp only at built
    split at built
    next empty =>
      refine ⟨secondary, mapError_ok built, ?_⟩
      simp only [setting, documented.new, empty]
    next =>
      obtain ⟨filled, filling, built⟩ := bind_ok built
      exact ⟨filled, mapError_ok built, documented.applicationData _ _ _ (mapError_ok filling)⟩
  obtain ⟨filled, serialized, filled_view⟩ := filling
  rw [setting] at filled_view
  refine ⟨apidFits, countFits, ?_⟩
  obtain ⟨dataLength, length, laidOut⟩ := documented.serialize filled pus packet serialized
    (by rw [filled_view]) (by rw [filled_view]) (by rw [filled_view]) (by rw [filled_view]) profile
  refine ⟨dataLength, length, ?_⟩
  rw [laidOut, filled_view]
  rfl

theorem primaryOf_fits {apid sequenceCount : UInt16} (apidFits : apid.toNat < 2 ^ 11)
    (countFits : sequenceCount.toNat < 2 ^ 14) (pus : SecondaryHeader) (dataLength : UInt16) :
    (primaryOf apid sequenceCount pus dataLength).Fits := by
  refine ⟨by simp [primaryOf], ?_, by simp [primaryOf], apidFits, by simp [primaryOf], countFits⟩
  cases pus <;> simp [primaryOf, SecondaryHeader.packetType]

theorem tc_octets_length (service subservice : UInt8) (sourceId : UInt16) (flags : UInt8) :
    (SecondaryHeader.tc service subservice sourceId flags).octets.length = 5 := by
  simp [SecondaryHeader.octets]

theorem tm_octets_length (tailoring : TmTailoring) (service subservice : UInt8)
    (counter destination : UInt16) (status : UInt8) (time : CucTime) :
    (SecondaryHeader.tm tailoring service subservice counter destination status time).octets.length =
      13 := by
  simp [SecondaryHeader.octets]

-- The metadata of a packet that was built from these arguments.
def builtMeta (now : UInt64) (h : Header) (service subservice : UInt8) : PacketMeta :=
  { fillPrimaryMeta h { tsNs := now } with svc := service, ssvc := subservice }

theorem readService_octets {h : Header} {pus : SecondaryHeader} {data : List UInt8}
    {deserialize : List UInt8 → Option (UInt8 × UInt8)} {service subservice : UInt8}
    (reads : deserialize pus.octets = some (service, subservice)) (crc : List UInt8 → UInt16)
    (m : PacketMeta) :
    readService (withChecksum crc (body h pus data)) pus.octets.length deserialize m =
      some { m with svc := service, ssvc := subservice } := by
  have long : 6 + pus.octets.length ≤ (withChecksum crc (body h pus data)).length := by
    simp only [withChecksum, body, List.length_append, length_octets]
    omega
  have header : ((withChecksum crc (body h pus data)).take (6 + pus.octets.length)).drop 6 =
      pus.octets := by
    rw [withChecksum, body, List.append_assoc, List.append_assoc, List.append_assoc,
      ← length_octets h, List.take_length_add_append, List.drop_left, List.take_left]
  rw [readService, if_pos long, slice_inside (by omega) long, header]
  simp only [Option.bind_eq_bind, Option.bind_some, reads, Option.pure_def]

/-- The router's inspection of a packet laid out with a PUS header. -/
theorem decodeMeta_body (documented : Documented lib) {h : Header} {pus : SecondaryHeader}
    {data : List UInt8} (now : UInt64) (fits : h.Fits) (version : h.versionNumber = 0)
    (flag : h.secondaryHeaderFlag = 1) (type : h.type = pus.packetType) (profile : pus.InProfile)
    (length : h.dataLength.toNat + 7 = (withChecksum documented.crc (body h pus data)).length) :
    decodeMeta lib.toCcsdsPack now (withChecksum documented.crc (body h pus data)) =
      some (.ok (builtMeta now h pus.service.1 pus.service.2)) := by
  have declared := documented.declared h
    (pus.octets ++ (data ++ BigEndian.bytes 2 (documented.crc (body h pus data)).toNat)) fits version
  have whole : h.octets ++ (pus.octets ++ (data ++
      BigEndian.bytes 2 (documented.crc (body h pus data)).toNat)) =
      withChecksum documented.crc (body h pus data) := by
    simp only [withChecksum, body, List.append_assoc]
  have long : 6 ≤ (withChecksum documented.crc (body h pus data)).length := by omega
  have first : ((withChecksum documented.crc (body h pus data)).take 6).drop 0 = h.octets := by
    rw [← whole, List.drop_zero, ← length_octets h, List.take_left]
  rw [whole, Nat.add_comm, length] at declared
  have flagged : ¬ (1 : UInt8) = 0 := by decide
  simp only [decodeMeta, declared, ne_eq, not_true_eq_false, if_false, slice_inside (Nat.zero_le 6) long,
    first, documented.header h fits, Option.bind_eq_bind, Option.bind_some, fillPrimaryMeta, flag,
    flagged]
  cases pus with
  | tc service subservice sourceId flags =>
    have reads := documented.tcHeader service subservice sourceId flags profile
    have size := documented.tcSize.trans (tc_octets_length service subservice sourceId flags).symm
    rw [type, SecondaryHeader.packetType, if_pos rfl, size, readService_octets reads]
    simp [builtMeta, fillPrimaryMeta, flag, type, SecondaryHeader.packetType, SecondaryHeader.service]
  | tm tailoring service subservice counter destination status time =>
    obtain ⟨rfl, profile⟩ := profile
    have reads := documented.tmHeader service subservice counter destination status time profile
    have size := documented.tmSize.trans
      (tm_octets_length exnTmTailoring service subservice counter destination status time).symm
    rw [type, SecondaryHeader.packetType, if_neg (by decide), size, readService_octets reads]
    simp [builtMeta, fillPrimaryMeta, flag, type, SecondaryHeader.packetType, SecondaryHeader.service]

theorem parsePusCTc_body (documented : Documented lib) {h : Header} {service subservice : UInt8}
    {sourceId : UInt16} {flags : UInt8} {data : List UInt8} (now : UInt64) (tcInfo : Option PusCTcInfo)
    (fits : h.Fits) (version : h.versionNumber = 0) (flag : h.secondaryHeaderFlag = 1)
    (type : h.type = 1) (profile : flags < 16)
    (length : h.dataLength.toNat + 7 = (withChecksum documented.crc
      (body h (.tc service subservice sourceId flags) data)).length) :
    parsePusCTc lib now
        (withChecksum documented.crc (body h (.tc service subservice sourceId flags) data)) tcInfo =
      { ok := true, pktMeta := builtMeta now h service subservice, applicationData := data, error := []
        tcInfo := tcInfo.map fun _ =>
          { sourceId, acknowledgementFlags := flags
            requestId := requestId (withChecksum documented.crc
              (body h (.tc service subservice sourceId flags) data)) } } := by
  have parsed := documented.typed h service subservice sourceId flags data fits version type flag
    profile length
  simp only [parsePusCTc, parsed, builtMeta, UInt16.toUInt16_toUInt64]

theorem requestId_first {packet : List UInt8} (long : 4 ≤ packet.length) :
    (requestId packet).toList = packet.take 4 := by
  match packet, long with
  | b0 :: b1 :: b2 :: b3 :: rest, _ => rfl
  | [], long | [_], long | [_, _], long | [_, _, _], long => simp at long

theorem setError_nonempty (context : String) (message : Text) : setError context message ≠ [] := by
  simp [setError, text]

theorem mapError_nonempty {α : Type} {x : Except Text α} {context : String} {error : Text}
    (failed : x.mapError (setError context) = .error error) : error ≠ [] := by
  cases x with
  | error message =>
    cases failed
    exact setError_nonempty context message
  | ok a => cases failed

theorem bind_error {ε α β : Type} {x : Except ε α} {f : α → Except ε β} {e : ε}
    (failed : x >>= f = .error e) : x = .error e ∨ ∃ a, f a = .error e := by
  cases x with
  | error e' =>
    cases failed
    exact .inl rfl
  | ok a => exact .inr ⟨a, failed⟩

theorem buildWith_error {lib : CcsdsPack} {apid sequenceCount : UInt16} {pus : SecondaryHeader}
    {context : String} {data : List UInt8} {error : Text}
    (failed : buildWith lib apid sequenceCount pus context data = .error error) : error ≠ [] := by
  rcases bind_error failed with failed | ⟨prepared, failed⟩
  · rcases bind_error failed with failed | ⟨versioned, failed⟩
    · exact mapError_nonempty failed
    rcases bind_error failed with failed | ⟨addressed, failed⟩
    · exact mapError_nonempty failed
    · exact mapError_nonempty failed
  rcases bind_error failed with failed | ⟨secondary, failed⟩
  · exact mapError_nonempty failed
  simp only at failed
  split at failed
  next => exact mapError_nonempty failed
  next =>
    rcases bind_error failed with failed | ⟨filled, failed⟩
    · exact mapError_nonempty failed
    · exact mapError_nonempty failed

theorem of_ok {result : Except Text (List UInt8)} (ok : (Built.of result).ok = true) :
    result = .ok (Built.of result).packet := by
  cases result with
  | error message => cases ok
  | ok packet => rfl

theorem of_failed {result : Except Text (List UInt8)} (failed : (Built.of result).ok = false) :
    (Built.of result).packet = [] ∧ result = .error (Built.of result).error := by
  cases result with
  | error message => exact ⟨rfl, rfl⟩
  | ok packet => cases failed

-- What the router and the endpoint read of a TC that was built from these arguments.
structure TcAgrees (lib : TypedPack) (now later : UInt64) (packet : List UInt8)
    (apid sequenceCount : UInt16) (service subservice : UInt8) (sourceId : UInt16) (flags : UInt8)
    (data : List UInt8) (m : PacketMeta) : Prop where
  inspected : decodeMeta lib.toCcsdsPack now packet = some (.ok m)
  profile : m.ver = 0 ∧ m.typ = 1 ∧ m.shf = 1 ∧ m.seqf = 3
  fields : m.apid = apid ∧ m.seq = sequenceCount ∧ m.svc = service ∧ m.ssvc = subservice
  length : m.len.toNat + 7 = packet.length
  parsed : ∀ before, ∃ info, parsePusCTc lib later packet (some before) =
      { ok := true, pktMeta := { m with tsNs := later }, applicationData := data, error := []
        tcInfo := some info } ∧
    info.sourceId = sourceId ∧ info.acknowledgementFlags = flags ∧
    info.requestId.toList = packet.take 4

theorem tc_agrees (documented : Documented lib) (now later : UInt64) {apid sequenceCount : UInt16}
    {service subservice : UInt8} {sourceId : UInt16} {flags : UInt8} {data : List UInt8}
    (profile : flags < 16)
    (built : (buildPusCTc lib.toCcsdsPack apid sequenceCount service subservice sourceId flags
      data).ok = true) :
    ∃ m, TcAgrees lib now later (buildPusCTc lib.toCcsdsPack apid sequenceCount service subservice
      sourceId flags data).packet apid sequenceCount service subservice sourceId flags data m := by
  have inProfile : (SecondaryHeader.tc service subservice sourceId flags).InProfile := profile
  rw [buildPusCTc] at built ⊢
  obtain ⟨apidFits, countFits, dataLength, length, laidOut⟩ :=
    buildWith_layout documented inProfile (of_ok built)
  have fits := primaryOf_fits apidFits countFits
    (.tc service subservice sourceId flags) dataLength
  rw [laidOut] at length
  rw [laidOut]
  refine ⟨builtMeta now (primaryOf apid sequenceCount
      (.tc service subservice sourceId flags) dataLength) service subservice,
    decodeMeta_body documented now fits rfl rfl rfl inProfile length, ⟨rfl, rfl, rfl, rfl⟩,
    ⟨rfl, rfl, rfl, rfl⟩, length, fun before => ⟨_,
      parsePusCTc_body documented later (some before) fits rfl rfl rfl profile length,
      rfl, rfl, requestId_first (by omega)⟩⟩

-- What the router reads of a TM that was built from these arguments.
structure TmAgrees (lib : CcsdsPack) (now : UInt64) (packet : List UInt8) (apid sequenceCount : UInt16)
    (service subservice : UInt8) (m : PacketMeta) : Prop where
  inspected : decodeMeta lib now packet = some (.ok m)
  fields : m.typ = 0 ∧ m.apid = apid ∧ m.seq = sequenceCount ∧ m.svc = service ∧ m.ssvc = subservice

theorem tm_agrees (documented : Documented lib) (clock now : UInt64) {apid sequenceCount : UInt16}
    {service subservice : UInt8} {counter destination : UInt16} {status : UInt8} {data : List UInt8}
    (profile : status < 16)
    (built : (buildPusCTm lib.toCcsdsPack clock apid sequenceCount service subservice counter
      destination status data).ok = true) :
    ∃ m, TmAgrees lib.toCcsdsPack now (buildPusCTm lib.toCcsdsPack clock apid sequenceCount service
      subservice counter destination status data).packet apid sequenceCount service subservice m := by
  have inProfile : (SecondaryHeader.tm exnTmTailoring service subservice counter destination status
      (currentExnCuc clock)).InProfile := ⟨rfl, profile⟩
  rw [buildPusCTm] at built ⊢
  obtain ⟨apidFits, countFits, dataLength, length, laidOut⟩ :=
    buildWith_layout documented inProfile (of_ok built)
  have fits := primaryOf_fits apidFits countFits (.tm exnTmTailoring service subservice counter
    destination status (currentExnCuc clock)) dataLength
  rw [laidOut] at length
  rw [laidOut]
  exact ⟨_, decodeMeta_body documented now fits rfl rfl rfl inProfile length, rfl, rfl, rfl, rfl, rfl⟩

/-- Builders, router and endpoint agree on every packet that is built; a builder that fails leaves an
error and no packet. -/
theorem pus_c_agreement (documented : Documented lib) (clock now later : UInt64) :
    (∀ apid sequenceCount service subservice sourceId flags data, flags < 16 →
      (buildPusCTc lib.toCcsdsPack apid sequenceCount service subservice sourceId flags data).ok = true →
      ∃ m, TcAgrees lib now later
        (buildPusCTc lib.toCcsdsPack apid sequenceCount service subservice sourceId flags data).packet
        apid sequenceCount service subservice sourceId flags data m) ∧
    (∀ apid sequenceCount service subservice counter destination status data, status < 16 →
      (buildPusCTm lib.toCcsdsPack clock apid sequenceCount service subservice counter destination
        status data).ok = true →
      ∃ m, TmAgrees lib.toCcsdsPack now
        (buildPusCTm lib.toCcsdsPack clock apid sequenceCount service subservice counter destination
          status data).packet apid sequenceCount service subservice m) ∧
    (∀ apid sequenceCount service subservice sourceId flags data,
      let built := buildPusCTc lib.toCcsdsPack apid sequenceCount service subservice sourceId flags data
      built.ok = false → built.packet = [] ∧ built.error ≠ []) ∧
    ∀ apid sequenceCount service subservice counter destination status data,
      let built := buildPusCTm lib.toCcsdsPack clock apid sequenceCount service subservice counter
        destination status data
      built.ok = false → built.packet = [] ∧ built.error ≠ [] := by
  refine ⟨?_, ?_, ?_, ?_⟩
  · exact fun _ _ _ _ _ _ _ profile built => tc_agrees documented now later profile built
  · exact fun _ _ _ _ _ _ _ _ profile built => tm_agrees documented clock now profile built
  · exact fun _ _ _ _ _ _ _ failed => ⟨(of_failed failed).1, buildWith_error (of_failed failed).2⟩
  · exact fun _ _ _ _ _ _ _ _ failed => ⟨(of_failed failed).1, buildWith_error (of_failed failed).2⟩

theorem pus_c_agreement_reference :
    (∃ m, TcAgrees Reference.typedPack 1 2
      (buildPusCTc Reference.typedPack.toCcsdsPack 0x2A 7 17 1 0x1234 9 [1, 2, 3]).packet
      0x2A 7 17 1 0x1234 9 [1, 2, 3] m) ∧
    (∃ m, TmAgrees Reference.typedPack.toCcsdsPack 1
      (buildPusCTm Reference.typedPack.toCcsdsPack 5 0x2A 7 17 2 3 4 6 []).packet 0x2A 7 17 2 m) ∧
    (buildPusCTc Reference.typedPack.toCcsdsPack 0x800 7 17 1 0x1234 9 []).packet = [] := by
  obtain ⟨telecommand, telemetry, refused, -⟩ := pus_c_agreement Reference.documented 5 1 2
  refine ⟨?_, ?_, ?_⟩
  · exact telecommand _ _ _ _ _ _ _ (by decide) (by decide +kernel)
  · exact telemetry _ _ _ _ _ _ _ _ (by decide) (by decide +kernel)
  · exact (refused _ _ _ _ _ _ _ (by decide +kernel)).1

end ExnGs.SpacePacket
