import ExnGs.Shared.Ccsds

set_option autoImplicit false

namespace ExnGs.Sim

open Proto SpacePacket

def APID_OBC : UInt16 := 0x100
def SVC_VERIFY : UInt8 := 1
def SVC_HK : UInt8 := 3
def SUB_VERIFY_ACCEPT_OK : UInt8 := 1
def SUB_VERIFY_ACCEPT_FAIL : UInt8 := 2
def SUB_VERIFY_START_OK : UInt8 := 3
def SUB_VERIFY_COMPLETE_OK : UInt8 := 7
def SUB_HK_REPORT : UInt8 := 25
def SUB_HK_REQUEST : UInt8 := 27
def SUB_SYS_HK_REQUEST : UInt8 := 128
def SUB_SYS_HK_REPORT : UInt8 := 129
def EXN_PUS_TC_ACK_ACCEPTANCE : UInt8 := 0x8
def EXN_PUS_TC_ACK_START : UInt8 := 0x4
def EXN_PUS_TC_ACK_COMPLETION : UInt8 := 0x1
def EXN_HK_HEARTBEAT : UInt16 := 1
def EXN_STATE_READY : UInt8 := 2
def EXN_TIME_UNSYNCED : UInt8 := 0
def EXN_SYSTEM_HK_OK : UInt8 := 0
def EXN_SUPERVISION_OK : UInt8 := 1
def EXN_RECOVERY_NONE : UInt8 := 0
def EXN_RECOVERY_REASON_NONE : UInt8 := 0
def EXN_RECOVERY_ACTION_NONE : UInt8 := 0
def EXN_RECOVERY_RESULT_NONE : UInt8 := 0

structure TcMessage where
  pktMeta : PacketMeta
  pus : PusCTcInfo
  applicationData : List UInt8
  deriving DecidableEq, Repr

def buildTm (lib : CcsdsPack) (now : UInt64) (apid seq : UInt16) (svc ssvc : UInt8)
    (destinationId : UInt16) (applicationData : List UInt8) : List UInt8 :=
  let built := buildPusCTm lib now apid seq svc ssvc seq destinationId EXN_TIME_UNSYNCED
    applicationData
  if !built.ok then [] else built.packet

def makeHkReport : List UInt8 :=
  appendU16 [] EXN_HK_HEARTBEAT ++ List.replicate 8 0 ++ [EXN_STATE_READY, EXN_TIME_UNSYNCED] ++
    List.replicate 20 0

def makeVerificationSuccess (tc : TcMessage) : List UInt8 := tc.pus.requestId.toList

def makeVerificationFailure (tc : TcMessage) (failureCode : UInt16) : List UInt8 :=
  appendU16 (appendU16 tc.pus.requestId.toList failureCode) 0

def supportedRequest (tc : TcMessage) : Bool :=
  tc.pktMeta.svc = SVC_HK ∧
    (tc.pktMeta.ssvc = SUB_HK_REQUEST ∨ tc.pktMeta.ssvc = SUB_SYS_HK_REQUEST)

def makeSystemHkReport (tc : TcMessage) : List UInt8 :=
  let obcHk := makeHkReport
  let app := tc.pus.requestId.toList ++ List.replicate 8 0 ++ [EXN_SYSTEM_HK_OK, 1]
  let app := appendU16 app APID_OBC ++
    [EXN_SUPERVISION_OK, EXN_STATE_READY, EXN_RECOVERY_NONE, EXN_RECOVERY_REASON_NONE,
      EXN_RECOVERY_ACTION_NONE, 0]
  let app := appendU16 (appendU16 app 0) 0 ++ [EXN_RECOVERY_RESULT_NONE]
  let app := appendU64 (appendU32 (appendU32 app 0) 0xFFFFFFFF) 0 ++ [1]
  let app := appendU16 (appendU32 (appendU16 app EXN_HK_HEARTBEAT) 0) (UInt16.ofNat obcHk.length)
  app ++ obcHk

/-- `tc_dispatch_task` between two turns of its loop: `tm_seq`, the packets pushed to `g_tm_q` so far
and, as history, the counts passed to `build_tm`. -/
structure DispatchTask where
  tmSeq : UInt16 := 100
  tmQ : List (List UInt8) := []
  counts : List UInt16 := []
  deriving DecidableEq, Repr

-- What the library does, and what the clock reads at each call of `build_tm`.
variable (lib : CcsdsPack) (now : Nat → UInt64)

def DispatchTask.report (task : DispatchTask) (svc ssvc : UInt8) (destinationId : UInt16)
    (applicationData : List UInt8) : DispatchTask :=
  let packet := buildTm lib (now task.counts.length) APID_OBC task.tmSeq svc ssvc destinationId
    applicationData
  { tmSeq := task.tmSeq + 1
    tmQ := if packet = [] then task.tmQ else task.tmQ ++ [packet]
    counts := task.counts ++ [task.tmSeq] }

def DispatchTask.dispatch (task : DispatchTask) (tc : TcMessage) : DispatchTask :=
  let supported := supportedRequest tc
  let task :=
    if tc.pus.acknowledgementFlags &&& EXN_PUS_TC_ACK_ACCEPTANCE ≠ 0 then
      let subtype := if supported then SUB_VERIFY_ACCEPT_OK else SUB_VERIFY_ACCEPT_FAIL
      let payload := if supported then makeVerificationSuccess tc else makeVerificationFailure tc 1
      task.report lib now SVC_VERIFY subtype tc.pus.sourceId payload
    else task
  if !supported then { task with tmSeq := task.tmSeq &&& 0x3FFF }
  else
    let task :=
      if tc.pus.acknowledgementFlags &&& EXN_PUS_TC_ACK_START ≠ 0 then
        task.report lib now SVC_VERIFY SUB_VERIFY_START_OK tc.pus.sourceId
          (makeVerificationSuccess tc)
      else task
    let task :=
      if tc.pktMeta.svc = SVC_HK ∧ tc.pktMeta.ssvc = SUB_HK_REQUEST then
        task.report lib now SVC_HK SUB_HK_REPORT tc.pus.sourceId makeHkReport
      else if tc.pktMeta.svc = SVC_HK ∧ tc.pktMeta.ssvc = SUB_SYS_HK_REQUEST then
        task.report lib now SVC_HK SUB_SYS_HK_REPORT tc.pus.sourceId (makeSystemHkReport tc)
      else task
    let task :=
      if tc.pus.acknowledgementFlags &&& EXN_PUS_TC_ACK_COMPLETION ≠ 0 then
        task.report lib now SVC_VERIFY SUB_VERIFY_COMPLETE_OK tc.pus.sourceId
          (makeVerificationSuccess tc)
      else task
    { task with tmSeq := task.tmSeq &&& 0x3FFF }

def DispatchTask.run (task : DispatchTask) (tcs : List TcMessage) : DispatchTask :=
  tcs.foldl (DispatchTask.dispatch lib now) task

end ExnGs.Sim
