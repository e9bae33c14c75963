import ExnGs.Lib.Pipeline
import ExnGs.Shared.EndpointReference
import ExnGs.Shared.FramerStream
import ExnGs.Sim.Dispatch

set_option autoImplicit false

-- What the simulator makes of the bytes that its clients send, one connection after the other.
namespace ExnGs.Sim

open Proto SpacePacket Framer Pipeline

/-- What the thread of the event loop holds: the framer that `start_session` made, and
`g_connected`. `parsed` is history, which no code reads: how often `parse_pus_c_tc` was called, and with
it the clock. -/
structure Session where
  framer : CcsdsFramer := {}
  connected : Bool := false
  parsed : Nat := 0
  deriving DecidableEq, Repr

-- How `async_accept` and `async_read_some` end.
inductive Arrival
  | accepted
  | acceptError
  | read (data : List UInt8)
  | readError
  deriving DecidableEq, Repr

def freshPus : PusCTcInfo :=
  { sourceId := 0, acknowledgementFlags := 0, requestId := .replicate 4 0 }

variable (lib : TypedPack) (clock : Nat → UInt64)

-- The callback given to `set_on_packet`: what it pushes to `g_tc_q`.
def onPacket (parsed : Nat) (bytes : List UInt8) : Nat × List TcMessage :=
  let tc := parsePusCTc lib (clock parsed) bytes (some freshPus)
  if tc.ok = false then (parsed + 1, [])
  else if tc.pktMeta.apid ≠ APID_OBC then (parsed + 1, [])
  else
    (parsed + 1, [{ pktMeta := tc.pktMeta, pus := tc.tcInfo.getD freshPus
                    applicationData := tc.applicationData }])

def parsing : Stage Nat (List UInt8) TcMessage where
  accepts := fun _ _ => true
  work := onPacket lib clock

namespace Session

def startSession (s : Session) : Session := { s with framer := {} }

-- `async_accept` is outstanding until a client is connected, and `async_read_some` from then on.
def accepts (s : Session) : Arrival → Bool
  | .accepted | .acceptError => !s.connected
  | .read _ | .readError => s.connected

def work (s : Session) : Arrival → Session × List TcMessage
  | .acceptError => (s.startSession, [])
  | .accepted => ({ s with connected := true }, [])
  | .read data =>
    let pushed := pushBytes lib.declaredPacketSize s.framer data
    let made := (parsing lib clock).run s.parsed pushed.2
    ({ s with framer := pushed.1, parsed := made.1 }, made.2)
  | .readError => ({ s with connected := false }.startSession, [])

end Session

def receiving : Stage Session Arrival TcMessage where
  accepts := Session.accepts
  work := Session.work lib clock

def hear (heard : List (List UInt8)) : Arrival → List (List UInt8)
  | .accepted => heard ++ [[]]
  | .read data => heard.dropLast ++ [heard.getLastD [] ++ data]
  | .acceptError | .readError => heard

-- The bytes that were read on each connection, one connection after the other.
def streams (arrivals : List Arrival) : List (List UInt8) := arrivals.foldl hear []

-- The packets that a framer of its own finds in the stream of a connection.
def framed (stream : List UInt8) : List (List UInt8) :=
  (pushBytes lib.declaredPacketSize {} stream).2

def requests (arrivals : List Arrival) : List TcMessage :=
  ((parsing lib clock).run 0 ((streams arrivals).flatMap (framed lib))).2

/-- After these arrivals: the framer has seen the last stream and no other, and what was pushed is what
the framers of the streams found. -/
structure Session.Hears (arrivals : List Arrival) (s : Session) (pushed : List TcMessage) : Prop where
  made : (parsing lib clock).run 0 ((streams arrivals).flatMap (framed lib)) = (s.parsed, pushed)
  up : s.connected = true → ∃ past stream, streams arrivals = past ++ [stream] ∧
    s.framer = (pushBytes lib.declaredPacketSize {} stream).1
  down : s.connected = false → s.framer = {}

variable {lib : TypedPack} {clock : Nat → UInt64}

theorem streams_concat (arrivals : List Arrival) (arrival : Arrival) :
    streams (arrivals ++ [arrival]) = hear (streams arrivals) arrival := by
  rw [streams, List.foldl_append]
  rfl

-- A stream goes through a fresh framer as if it were pushed at once.
theorem pushBytes_split_stream (header : DependsOnHeader lib.declaredPacketSize)
    (stream data : List UInt8) :
    pushBytes lib.declaredPacketSize {} (stream ++ data) =
      let before := pushBytes lib.declaredPacketSize {} stream
      let now := pushBytes lib.declaredPacketSize before.1 data
      (now.1, before.2 ++ now.2) := by
  have fresh := pushAll_fresh header [stream ++ data]
  have pieces := pushAll_fresh header [stream, data]
  simp only [List.flatten_cons, List.flatten_nil, List.append_nil] at fresh pieces
  have same := fresh.trans pieces.symm
  simpa only [pushAll, List.append_nil] using same

theorem framed_nil (lib : TypedPack) : framed lib [] = [] := rfl

variable {arrivals : List Arrival} {s : Session} {pushed : List TcMessage}

theorem Session.Hears.accepted (hears : s.Hears lib clock arrivals pushed)
    (idle : s.connected = false) :
    Hears lib clock (arrivals ++ [.accepted]) { s with connected := true } (pushed ++ []) := by
  refine ⟨?_, fun _ => ⟨streams arrivals, [], streams_concat _ _, hears.down idle⟩, by simp⟩
  rw [streams_concat, hear, List.flatMap_append, List.flatMap_singleton, framed_nil, List.append_nil,
    List.append_nil, hears.made]

theorem Session.Hears.read (header : DependsOnHeader lib.declaredPacketSize)
    (hears : s.Hears lib clock arrivals pushed) (connected : s.connected = true) (data : List UInt8) :
    Hears lib clock (arrivals ++ [.read data]) (s.work lib clock (.read data)).1
      (pushed ++ (s.work lib clock (.read data)).2) := by
  obtain ⟨past, stream, heard, framer⟩ := hears.up connected
  have split := pushBytes_split_stream header stream data
  have now : streams (arrivals ++ [.read data]) = past ++ [stream ++ data] := by
    rw [streams_concat, hear, heard, List.dropLast_concat, List.getLastD_concat]
  refine ⟨?_, fun _ => ⟨past, stream ++ data, now, ?_⟩, fun closed => ?_⟩
  · have made := hears.made
    rw [heard, List.flatMap_append, List.flatMap_singleton] at made
    rw [now, List.flatMap_append, List.flatMap_singleton, framed, split, ← List.append_assoc,
      Stage.run_append, ← framed, made]
    simp only [Session.work, framer]
  · rw [split, work, framer]
  · rw [work, connected] at closed
    cases closed

theorem Session.Hears.restart (hears : s.Hears lib clock arrivals pushed) (arrival : Arrival)
    (silent : hear (streams arrivals) arrival = streams arrivals) :
    Hears lib clock (arrivals ++ [arrival]) { s with framer := {}, connected := false }
      (pushed ++ []) := by
  refine ⟨?_, nofun, fun _ => rfl⟩
  rw [streams_concat, silent, List.append_nil]
  exact hears.made

theorem receiving_hears (header : DependsOnHeader lib.declaredPacketSize)
    (accepted : (receiving lib clock).Accepted {} arrivals) :
    Session.Hears lib clock arrivals ((receiving lib clock).run {} arrivals).1
      ((receiving lib clock).run {} arrivals).2 := by
  refine Stage.run_invariant (motive := fun arrivals s pushed => s.Hears lib clock arrivals pushed)
    ⟨rfl, nofun, fun _ => rfl⟩ (fun arrivals arrival s pushed hears may => ?_) accepted
  cases arrival with
  | accepted => exact hears.accepted (by simpa [receiving, Session.accepts] using may)
  | acceptError =>
    have idle : s.connected = false := by simpa [receiving, Session.accepts] using may
    have restarted := hears.restart .acceptError rfl
    rwa [← idle] at restarted
  | read data => exact hears.read header may data
  | readError => exact hears.restart .readError rfl

/-- Whatever the clients send, in whatever pieces, and wherever their connections break: the requests
pushed are those that each connection's stream holds by itself, in order. -/
theorem sessions_isolated (header : DependsOnHeader lib.declaredPacketSize) (clock : Nat → UInt64)
    (arrivals : List Arrival) (accepted : (receiving lib clock).Accepted {} arrivals) :
    ((receiving lib clock).run {} arrivals).2 = requests lib clock arrivals := by
  rw [requests, (receiving_hears header accepted).made]

def systemHkTc : List UInt8 :=
  (buildPusCTc Reference.typedPack.toCcsdsPack APID_OBC 1 SVC_HK SUB_SYS_HK_REQUEST 0x10 8 []).packet

-- The first connection breaks within a packet; the second brings the packet in two pieces.
def brokenOff : List Arrival :=
  [.accepted, .read (systemHkTc.take 9), .readError, .acceptError, .accepted,
    .read (systemHkTc.take 4), .read (systemHkTc.drop 4)]

theorem sessions_isolated_broken_off :
    ((receiving Reference.typedPack fun _ => 0).run {} brokenOff).2 =
        requests Reference.typedPack (fun _ => 0) brokenOff ∧
      streams brokenOff = [systemHkTc.take 9, systemHkTc] :=
  ⟨sessions_isolated Reference.typed_dependsOnHeader (fun _ => 0) brokenOff (by decide +kernel),
    by decide +kernel⟩

end ExnGs.Sim
