import ExnGs.Lib.Numbering
import ExnGs.Shared.ReferencePack
import ExnGs.Sim.Dispatch

set_option autoImplicit false

namespace ExnGs.Sim

open Proto SpacePacket Numbering

structure Report where
  svc : UInt8
  ssvc : UInt8
  destinationId : UInt16
  applicationData : List UInt8
  deriving DecidableEq, Repr

def asksFor (tc : TcMessage) (flag : UInt8) (report : Report) : List Report :=
  if tc.pus.acknowledgementFlags &&& flag ≠ 0 then [report] else []

def hkReport (tc : TcMessage) : Report :=
  if tc.pktMeta.ssvc = SUB_HK_REQUEST then
    { svc := SVC_HK, ssvc := SUB_HK_REPORT, destinationId := tc.pus.sourceId
      applicationData := makeHkReport }
  else
    { svc := SVC_HK, ssvc := SUB_SYS_HK_REPORT, destinationId := tc.pus.sourceId
      applicationData := makeSystemHkReport tc }

def verification (tc : TcMessage) (ssvc : UInt8) (applicationData : List UInt8) : Report :=
  { svc := SVC_VERIFY, ssvc, destinationId := tc.pus.sourceId, applicationData }

def reportsFor (tc : TcMessage) : List Report :=
  let requestId := tc.pus.requestId.toList
  if supportedRequest tc then
    asksFor tc EXN_PUS_TC_ACK_ACCEPTANCE (verification tc SUB_VERIFY_ACCEPT_OK requestId) ++
      asksFor tc EXN_PUS_TC_ACK_START (verification tc SUB_VERIFY_START_OK requestId) ++
      [hkReport tc] ++
      asksFor tc EXN_PUS_TC_ACK_COMPLETION (verification tc SUB_VERIFY_COMPLETE_OK requestId)
  else
    asksFor tc EXN_PUS_TC_ACK_ACCEPTANCE
      (verification tc SUB_VERIFY_ACCEPT_FAIL (requestId ++ [0, 1, 0, 0]))

def packetOf (lib : CcsdsPack) (now : UInt64) (count : UInt16) (report : Report) : List UInt8 :=
  (buildPusCTm lib now APID_OBC count report.svc report.ssvc count report.destinationId
    EXN_TIME_UNSYNCED report.applicationData).packet

variable (lib : CcsdsPack) (now : Nat → UInt64)

/-- What is assumed of the TM builder: with an 11-bit APID and data that fits into a packet, it
succeeds, with a packet that is not empty, when the count has 14 bits, and fails when not. -/
def BuildsTm (lib : CcsdsPack) : Prop :=
  ∀ now apid count svc ssvc counter destination status data, apid ≤ 0x7FF → data.length ≤ 65521 →
    (count ≤ 0x3FFF →
      (buildPusCTm lib now apid count svc ssvc counter destination status data).ok = true ∧
      (buildPusCTm lib now apid count svc ssvc counter destination status data).packet ≠ []) ∧
    (0x3FFF < count →
      (buildPusCTm lib now apid count svc ssvc counter destination status data).ok = false)

-- The reports due to the TCs, each with its count: from 100 on, modulo `2^14`.
def due (tcs : List TcMessage) : List (Nat × Report) :=
  wrapped (2 ^ 14) 100 (tcs.flatMap reportsFor)

/-- Every report that is due is pushed, in order, and the counts are the due ones. -/
structure ReportsAll (tcs : List TcMessage) : Prop where
  pushed : (DispatchTask.run lib now {} tcs).tmQ =
    (due tcs).mapIdx fun i given => packetOf lib (now i) (UInt16.ofNat given.1) given.2
  counted : (DispatchTask.run lib now {} tcs).counts =
    (due tcs).map fun given => UInt16.ofNat given.1
  bounded : ∀ count ∈ (DispatchTask.run lib now {} tcs).counts, count ≤ 0x3FFF

def DispatchTask.emit (task : DispatchTask) (report : Report) : DispatchTask :=
  task.report lib now report.svc report.ssvc report.destinationId report.applicationData

theorem supportedRequest_iff (tc : TcMessage) : supportedRequest tc = true ↔
    tc.pktMeta.svc = SVC_HK ∧
      (tc.pktMeta.ssvc = SUB_HK_REQUEST ∨ tc.pktMeta.ssvc = SUB_SYS_HK_REQUEST) := by
  simp [supportedRequest]

theorem emit_asksFor (task : DispatchTask) (tc : TcMessage) (flag : UInt8) (report : Report) :
    (asksFor tc flag report).foldl (DispatchTask.emit lib now) task =
      if tc.pus.acknowledgementFlags &&& flag ≠ 0 then task.emit lib now report else task := by
  unfold asksFor
  split <;> rfl

theorem makeVerificationFailure_one (tc : TcMessage) :
    makeVerificationFailure tc 1 = tc.pus.requestId.toList ++ [0, 1, 0, 0] := by
  rw [makeVerificationFailure, appendU16_bytes, appendU16_bytes, List.append_assoc]
  rfl

theorem dispatch_reports (task : DispatchTask) (tc : TcMessage) :
    task.dispatch lib now tc =
      let sent := (reportsFor tc).foldl (DispatchTask.emit lib now) task
      { sent with tmSeq := sent.tmSeq &&& 0x3FFF } := by
  cases supported : supportedRequest tc with
  | false =>
    simp only [DispatchTask.dispatch, reportsFor, supported, Bool.false_eq_true, if_false,
      Bool.not_false, if_true, emit_asksFor, makeVerificationFailure_one]
    rfl
  | true =>
    obtain ⟨svc, ssvc⟩ := (supportedRequest_iff tc).mp supported
    simp only [DispatchTask.dispatch, reportsFor, supported, Bool.not_true, Bool.false_eq_true,
      if_false, if_true, List.foldl_append, emit_asksFor, List.foldl_cons, List.foldl_nil, hkReport,
      svc, true_and]
    rcases ssvc with hk | sys
    · simp only [hk, if_true]
      rfl
    · have other : SUB_SYS_HK_REQUEST ≠ SUB_HK_REQUEST := by decide
      simp only [sys, other, if_false, if_true]
      rfl

-- The packets that are left of reports with their counts, from the `n`-th call of the builder on.
def packets (n : Nat) (given : List (Nat × Report)) : List (List UInt8) :=
  (given.mapIdx fun i g => buildTm lib (now (n + i)) APID_OBC (UInt16.ofNat g.1) g.2.svc g.2.ssvc
    g.2.destinationId g.2.applicationData).filter (· ≠ [])

theorem packets_append (n : Nat) (left right : List (Nat × Report)) :
    packets lib now n (left ++ right) =
      packets lib now n left ++ packets lib now (n + left.length) right := by
  have shift : ∀ i, n + (i + left.length) = n + left.length + i := fun i => by omega
  simp only [packets, List.mapIdx_append, List.filter_append, shift]

structure DispatchTask.Gave (task : DispatchTask) (given : List (Nat × Report))
    (task' : DispatchTask) : Prop where
  counts : task'.counts = task.counts ++ given.map fun g => UInt16.ofNat g.1
  tmQ : task'.tmQ = task.tmQ ++ packets lib now task.counts.length given

theorem DispatchTask.Gave.trans {lib : CcsdsPack} {now : Nat → UInt64}
    {task task' task'' : DispatchTask} {left right : List (Nat × Report)}
    (first : task.Gave lib now left task') (second : task'.Gave lib now right task'') :
    task.Gave lib now (left ++ right) task'' where
  counts := by rw [second.counts, first.counts, List.map_append, List.append_assoc]
  tmQ := by
    rw [second.tmQ, first.tmQ, first.counts, packets_append, List.append_assoc]
    simp

theorem emit_gave (task : DispatchTask) (s : Nat) (seq : task.tmSeq = UInt16.ofNat s)
    (report : Report) : task.Gave lib now [(s, report)] (task.emit lib now report) := by
  refine ⟨by simp [DispatchTask.emit, DispatchTask.report, seq], ?_⟩
  simp only [DispatchTask.emit, DispatchTask.report, packets, seq, List.mapIdx_cons, List.mapIdx_nil,
    Nat.add_zero, List.filter_cons, List.filter_nil]
  split <;> simp_all

theorem emit_tmSeq (task : DispatchTask) (s : Nat) (seq : task.tmSeq = UInt16.ofNat s)
    (report : Report) : (task.emit lib now report).tmSeq = UInt16.ofNat (s + 1) := by
  rw [UInt16.ofNat_add, ← seq]
  rfl

theorem foldl_emit_gave (reports : List Report) (task : DispatchTask) (s : Nat)
    (seq : task.tmSeq = UInt16.ofNat s) :
    task.Gave lib now (reports.mapIdx fun i r => (s + i, r))
      (reports.foldl (DispatchTask.emit lib now) task) ∧
    (reports.foldl (DispatchTask.emit lib now) task).tmSeq = UInt16.ofNat (s + reports.length) := by
  induction reports generalizing task s with
  | nil => exact ⟨⟨by simp, by simp [packets]⟩, seq⟩
  | cons report rest ih =>
    obtain ⟨later, last⟩ := ih (task.emit lib now report) (s + 1) (emit_tmSeq lib now task s seq report)
    have whole := (emit_gave lib now task s seq report).trans later
    refine ⟨?_, by rw [List.foldl_cons, last, List.length_cons, Nat.add_assoc, Nat.add_comm 1]⟩
    simpa [List.mapIdx_cons, Nat.add_assoc, Nat.add_comm 1] using whole

theorem mask_ofNat (n : Nat) : UInt16.ofNat n &&& 0x3FFF = UInt16.ofNat (n % 2 ^ 14) := by
  apply UInt16.toNat_inj.mp
  rw [UInt16.toNat_and, UInt16.toNat_ofNat', UInt16.toNat_ofNat',
    show (0x3FFF : UInt16).toNat = 2 ^ 14 - 1 from rfl, Nat.and_two_pow_sub_one_eq_mod]
  omega

theorem run_gave (tcs : List TcMessage) (task : DispatchTask) (s : Nat)
    (seq : task.tmSeq = UInt16.ofNat s) :
    task.Gave lib now (numbered (2 ^ 14) s (tcs.map reportsFor)) (task.run lib now tcs) := by
  induction tcs generalizing task s with
  | nil => exact ⟨by simp [numbered, DispatchTask.run], by simp [numbered, packets, DispatchTask.run]⟩
  | cons tc rest ih =>
    obtain ⟨first, last⟩ := foldl_emit_gave lib now (reportsFor tc) task s seq
    have turn := dispatch_reports lib now task tc
    have next := ih (task.dispatch lib now tc) ((s + (reportsFor tc).length) % 2 ^ 14)
      (by rw [turn]; simp only [last, mask_ofNat])
    have here : task.Gave lib now ((reportsFor tc).mapIdx fun i r => (s + i, r))
        (task.dispatch lib now tc) := by
      rw [turn]
      exact ⟨first.counts, first.tmQ⟩
    exact here.trans next

theorem fits_reports_iff (tcs : List TcMessage) : Fits (2 ^ 14) 100 (tcs.map reportsFor) ↔
    ∀ before tc after, tcs = before ++ tc :: after →
      (100 + (before.flatMap reportsFor).length) % 2 ^ 14 + (reportsFor tc).length ≤ 2 ^ 14 := by
  rw [fits_iff _ _ (by decide)]
  constructor
  · rintro bound before tc after rfl
    exact bound (before.map reportsFor) (reportsFor tc) (after.map reportsFor) (by simp)
  · intro bound before group after split
    obtain ⟨front, back, rfl, rfl, rest⟩ := List.map_eq_append_iff.mp split
    obtain ⟨tc, later, rfl, rfl, rfl⟩ := List.map_eq_cons_iff.mp rest
    exact bound front tc later rfl

-- A count that is not reduced in time shows.
theorem fits_of_reportsAll {lib : CcsdsPack} {now : Nat → UInt64} {tcs : List TcMessage}
    (all : ReportsAll lib now tcs) : Fits (2 ^ 14) 100 (tcs.map reportsFor) := by
  by_contra crosses
  obtain ⟨given, member, equal⟩ := numbered_overflow (2 ^ 14) 100 (by decide) _ crosses
  have counts := (run_gave lib now tcs {} 100 rfl).counts
  have counted : UInt16.ofNat given.1 ∈ (DispatchTask.run lib now {} tcs).counts := by
    rw [counts]
    exact List.mem_append_right _ (List.mem_map_of_mem member)
  have bound := all.bounded _ counted
  rw [equal] at bound
  exact absurd bound (by decide)

theorem mem_asksFor {tc : TcMessage} {flag : UInt8} {report r : Report}
    (member : r ∈ asksFor tc flag report) : r = report := by
  unfold asksFor at member
  split at member
  next => exact List.mem_singleton.mp member
  next => cases member

theorem length_makeSystemHkReport (tc : TcMessage) : (makeSystemHkReport tc).length = 84 := by
  have hk : makeHkReport.length = 32 := by decide
  simp [makeSystemHkReport, appendU64, appendU32_bytes, appendU16_bytes, hk]

theorem hkReport_small (tc : TcMessage) : (hkReport tc).applicationData.length ≤ 65521 := by
  unfold hkReport
  split
  next => exact show makeHkReport.length ≤ 65521 by decide
  next => simp [length_makeSystemHkReport]

theorem reportsFor_small (tc : TcMessage) :
    ∀ report ∈ reportsFor tc, report.applicationData.length ≤ 65521 := by
  have verified : ∀ ssvc, ∀ data : List UInt8, data.length ≤ 8 →
      (verification tc ssvc data).applicationData.length ≤ 65521 :=
    fun ssvc data short => Nat.le_trans short (by decide)
  intro report member
  unfold reportsFor at member
  split at member
  next =>
    simp only [List.mem_append, List.mem_singleton] at member
    rcases member with ((accept | start) | rfl) | complete
    · exact mem_asksFor accept ▸ verified _ _ (by simp)
    · exact mem_asksFor start ▸ verified _ _ (by simp)
    · exact hkReport_small tc
    · exact mem_asksFor complete ▸ verified _ _ (by simp)
  next => exact mem_asksFor member ▸ verified _ _ (by simp)

theorem mem_due {tcs : List TcMessage} {given : Nat × Report} (member : given ∈ due tcs) :
    UInt16.ofNat given.1 ≤ 0x3FFF ∧ given.2.applicationData.length ≤ 65521 := by
  rw [due, wrapped, List.mem_mapIdx] at member
  obtain ⟨i, inside, rfl⟩ := member
  obtain ⟨tc, _, among⟩ := List.mem_flatMap.mp (List.getElem_mem inside)
  refine ⟨?_, reportsFor_small tc _ among⟩
  have small := Nat.mod_lt (100 + i) (show 0 < 2 ^ 14 by decide)
  rw [UInt16.le_iff_toNat_le, UInt16.toNat_ofNat', show (0x3FFF : UInt16).toNat = 2 ^ 14 - 1 from rfl]
  omega

theorem packets_due {lib : CcsdsPack} (builds : BuildsTm lib) (now : Nat → UInt64)
    (tcs : List TcMessage) :
    packets lib now 0 (due tcs) =
      (due tcs).mapIdx fun i given => packetOf lib (now i) (UInt16.ofNat given.1) given.2 := by
  have built : ∀ i, ∀ given ∈ due tcs,
      buildTm lib (now i) APID_OBC (UInt16.ofNat given.1) given.2.svc given.2.ssvc
        given.2.destinationId given.2.applicationData =
          packetOf lib (now i) (UInt16.ofNat given.1) given.2 ∧
      packetOf lib (now i) (UInt16.ofNat given.1) given.2 ≠ [] := by
    intro i given member
    obtain ⟨count, size⟩ := mem_due member
    obtain ⟨ok, filled⟩ := (builds (now i) APID_OBC _ given.2.svc given.2.ssvc (UInt16.ofNat given.1)
      given.2.destinationId EXN_TIME_UNSYNCED given.2.applicationData (by decide) size).1 count
    exact ⟨by simp [buildTm, packetOf, ok], filled⟩
  have same : (due tcs).mapIdx (fun i g => buildTm lib (now (0 + i)) APID_OBC (UInt16.ofNat g.1)
      g.2.svc g.2.ssvc g.2.destinationId g.2.applicationData) =
      (due tcs).mapIdx fun i given => packetOf lib (now i) (UInt16.ofNat given.1) given.2 := by
    refine List.ext_getElem (by simp) fun i inside _ => ?_
    have bound : i < (due tcs).length := by simpa using inside
    simpa using (built i _ (List.getElem_mem bound)).1
  rw [packets, same, List.filter_eq_self]
  intro packet member
  obtain ⟨i, inside, rfl⟩ := List.mem_mapIdx.mp member
  simpa using (built i _ (List.getElem_mem inside)).2

-- The simulator reports on every TC with the due count as long as no TC's reports go beyond the last
-- 14-bit count.
theorem reportsAll_iff {lib : CcsdsPack} (builds : BuildsTm lib) (now : Nat → UInt64)
    (tcs : List TcMessage) :
    ReportsAll lib now tcs ↔ ∀ before tc after, tcs = before ++ tc :: after →
      (100 + (before.flatMap reportsFor).length) % 2 ^ 14 + (reportsFor tc).length ≤ 2 ^ 14 := by
  rw [← fits_reports_iff]
  refine ⟨fits_of_reportsAll, fun fits => ?_⟩
  obtain ⟨counts, tmQ⟩ := run_gave lib now tcs {} 100 rfl
  have same : numbered (2 ^ 14) 100 (tcs.map reportsFor) = due tcs := by
    rw [numbered_eq_wrapped _ _ _ fits, due, List.flatMap_def]
  rw [same, List.nil_append] at counts
  rw [same, List.nil_append] at tmQ
  refine ⟨tmQ.trans (packets_due builds now tcs), counts, ?_⟩
  intro count member
  rw [counts] at member
  obtain ⟨given, due, rfl⟩ := List.mem_map.mp member
  exact (mem_due due).1

theorem reference_serializes (apid count : UInt16) (svc ssvc : UInt8) (counter destination : UInt16)
    (status : UInt8) (time : CucTime) (data : List UInt8) (small : data.length ≤ 65521) :
    ∃ packet, packet ≠ [] ∧ Reference.serialize
      { apid, sequenceCount := count
        secondary := some (.tm exnTmTailoring svc ssvc counter destination status time)
        applicationData := data } = .ok packet := by
  have fits : ¬ 65534 < (Reference.secondaryBytes
      (.tm exnTmTailoring svc ssvc counter destination status time) ++ data).length := by
    simp only [Reference.secondaryBytes, List.length_append, BigEndian.length_bytes,
      List.length_cons, List.length_nil]
    omega
  refine ⟨_, ?_, by simp only [Reference.serialize, fits, if_false]; rfl⟩
  simp [BigEndian.bytes]

theorem reference_buildsTm : BuildsTm Reference.pack := by
  intro now apid count svc ssvc counter destination status data apidSmall dataSmall
  have apidFits : ¬ 0x7FF < apid := UInt16.not_lt.mpr apidSmall
  constructor
  · intro countSmall
    have countFits : ¬ 0x3FFF < count := UInt16.not_lt.mpr countSmall
    obtain ⟨packet, filled, serialized⟩ := reference_serializes apid count svc ssvc counter
      destination status (currentExnCuc now) data dataSmall
    have built : buildPusCTm Reference.pack now apid count svc ssvc counter destination status data =
        { ok := true, packet, error := [] } := by
      simp only [buildPusCTm, buildWith, preparePrimary, Reference.pack, apidFits, countFits, if_true,
        if_false]
      by_cases empty : data = []
      · subst empty
        simp only [if_true]
        exact congrArg (fun r => Built.of (r.mapError (setError "serialize Space Packet"))) serialized
      · simp only [empty, if_false]
        exact congrArg (fun r => Built.of (r.mapError (setError "serialize Space Packet"))) serialized
    rw [built]
    exact ⟨rfl, filled⟩
  · intro countLarge
    simp only [buildPusCTm, buildWith, preparePrimary, Reference.pack, apidFits, countLarge, if_true,
      if_false]
    rfl

def hkRequest (acknowledgementFlags : UInt8) : TcMessage where
  pktMeta := { typ := 1, shf := 1, apid := APID_OBC, seqf := 3, svc := SVC_HK, ssvc := SUB_HK_REQUEST }
  pus := { sourceId := 0x10, acknowledgementFlags, requestId := #v[0x19, 0, 0xC0, 0] }
  applicationData := []

theorem reportsAll_hkRequest : ReportsAll Reference.pack (fun _ => 0) [hkRequest 0xD] :=
  (reportsAll_iff reference_buildsTm _ _).mpr ((fits_reports_iff _).mp ⟨by decide, trivial⟩)

-- After one report and 4070 times four, the last of the next four reports is given the count `0x4000`.
theorem reportsAll_loses_report :
    ¬ ReportsAll Reference.pack (fun _ => 0) (hkRequest 0 :: List.replicate 4071 (hkRequest 0xD)) := by
  intro all
  have one : (reportsFor (hkRequest 0)).length = 1 := by decide
  have four : (reportsFor (hkRequest 0xD)).length = 4 := by decide
  have total : ∀ n, ((hkRequest 0 :: List.replicate n (hkRequest 0xD)).flatMap reportsFor).length =
      1 + n * 4 := by
    intro n
    rw [List.flatMap_cons, List.length_append, List.length_flatMap, List.map_replicate,
      List.sum_replicate_nat, one, four]
  have split : hkRequest 0 :: List.replicate 4071 (hkRequest 0xD) =
      (hkRequest 0 :: List.replicate 4070 (hkRequest 0xD)) ++ [hkRequest 0xD] := by
    rw [List.cons_append, ← List.replicate_succ']
  have bound := (fits_reports_iff _).mp (fits_of_reportsAll all) _ _ _ split
  rw [total, four] at bound
  exact absurd bound (by decide)

end ExnGs.Sim
