import ExnGs.Daemon.LinkRefinement
import ExnGs.Daemon.Moves
import ExnGs.Shared.PacketStream

set_option autoImplicit false

-- What the device is sent, from the requests of the clients to the framer at its end of the connection.
namespace ExnGs.Daemon

open Proto SpacePacket Framer Machine Relation

-- The packets of which it is settled whether they enter the queue.
def LinkEvent.decided : LinkEvent → List TxPacket
  | .queued _ packet | .discarded packet => [packet]
  | _ => []

def Event.decided (event : Event) : List TxPacket := event.ofLink.flatMap LinkEvent.decided

def Event.posted (event : Event) : List TxPacket := event.ofLink.flatMap LinkEvent.packets

namespace SerialLink

variable (link : SerialLink)

theorem call_undecided (c : LinkCall) : (link.call c).2.flatMap LinkEvent.decided = [] := by
  cases c with
  | start serial =>
    have started := link.start_cases fun _ => serial
    change (link.start fun _ => serial).2.flatMap LinkEvent.decided = []
    generalize link.start (fun _ => serial) = turn at started
    cases started <;> rfl
  | stop => rfl
  | write data =>
    change (link.writeBytes data).flatMap LinkEvent.decided = []
    unfold writeBytes
    split <;> rfl

-- Nothing but `write_bytes` posts a packet.
theorem turn_unposted {device : Nat → SerialOpen} {link : SerialLink} {turn : SerialLink × List LinkEvent}
    (turned : link.Turn device turn) : turn.2.flatMap LinkEvent.packets = [] := by
  cases turned with
  | start =>
    have started := link.start_cases device
    generalize link.start device = turn at started
    cases started <;> rfl
  | stop => rfl
  | handled op result =>
    have handled := link.handler_cases op result
    generalize link.handler op result = turn at handled
    cases handled with
    | @read data _ reads => split <;> rcases reads with rfl | rfl <;> rfl
    | written writes => rcases writes with rfl | ⟨later, -, rfl⟩ <;> rfl
    | _ => rfl
  | transmitted packet =>
    have ran := link.runWrite_cases packet
    generalize link.runWrite packet = turn at ran
    cases ran <;> rfl

theorem handler_undecided (op : LinkOp) (result : Completion) :
    (link.handler op result).2.flatMap LinkEvent.decided = [] := by
  have handled := link.handler_cases op result
  generalize link.handler op result = turn at handled
  cases handled with
  | @read data _ reads => split <;> rcases reads with rfl | rfl <;> rfl
  | written writes => rcases writes with rfl | ⟨later, -, rfl⟩ <;> rfl
  | _ => rfl

theorem runWrite_decides (packet : TxPacket) :
    (link.runWrite packet).2.flatMap LinkEvent.decided = [packet] := by
  have ran := link.runWrite_cases packet
  generalize link.runWrite packet = turn at ran
  cases ran <;> rfl

end SerialLink

namespace Device

variable {env : Env} {dev dev' : Device}

def decided (dev : Device) : List TxPacket := dev.log.flatMap Event.decided

def posted (dev : Device) : List TxPacket := dev.log.flatMap Event.posted

def waiting (dev : Device) : List TxPacket := dev.tasks.filterMap Task.closure

-- The closures of `write_bytes` run one after the other, in the order that they were posted in.
def InTurn (dev : Device) : Prop := dev.decided ++ dev.waiting = dev.posted

theorem inTurn_turn (dev : Device) {turn : SerialLink × List LinkEvent}
    (due : dev.decided ++ (turn.2.flatMap LinkEvent.decided ++ dev.waiting) = dev.posted)
    (lib : CcsdsPack) : (dev.turn lib turn).InTurn := by
  have closures : (dev.turn lib turn).waiting = dev.waiting ++ turn.2.flatMap LinkEvent.packets := by
    rw [waiting, turn_tasks, List.filterMap_append, (posted_closures turn.2).1]
    rfl
  have log : ∀ view : LinkEvent → List TxPacket,
      (dev.turn lib turn).log.flatMap (fun event => event.ofLink.flatMap view) =
        dev.log.flatMap (fun event => event.ofLink.flatMap view) ++ turn.2.flatMap view := by
    intro view
    rw [turn_observed fun _ _ => rfl]
    simp [Event.ofLink]
  have decides : (dev.turn lib turn).decided = dev.decided ++ turn.2.flatMap LinkEvent.decided := log _
  have posts : (dev.turn lib turn).posted = dev.posted ++ turn.2.flatMap LinkEvent.packets := log _
  rw [InTurn, decides, posts, closures, ← due]
  simp only [List.append_assoc]

theorem InTurn.undecided {turn : SerialLink × List LinkEvent} (inTurn : dev.InTurn)
    (undecided : turn.2.flatMap LinkEvent.decided = []) (lib : CcsdsPack) :
    (dev.turn lib turn).InTurn := by
  refine inTurn_turn dev ?_ lib
  rw [undecided, List.nil_append]
  exact inTurn

theorem InTurn.announce (inTurn : dev.InTurn) (data : List UInt8) (f : Frame) :
    (dev.announce data f).InTurn := by
  have decides : (dev.announce data f).decided = dev.decided := by
    simp [decided, Device.announce, Event.decided, Event.ofLink]
  have posts : (dev.announce data f).posted = dev.posted := by
    simp [posted, Device.announce, Event.posted, Event.ofLink]
  rw [InTurn, decides, posts]
  exact inTurn

theorem InTurn.step {may : Device → Task → Prop} (inTurn : dev.InTurn) (stepped : Step env may dev dev') :
    dev'.InTurn := by
  cases stepped with
  | start =>
    exact inTurn.undecided (dev.link.call_undecided (.start (env.device (dev.link.generation + 1)))) _
  | stop => exact inTurn.undecided (dev.link.call_undecided .stop) _
  | @write data f opened long type =>
    have posted := inTurn.undecided (dev.link.call_undecided (.write data)) env.lib
    exact posted.announce data f
  | @finish before after op result ops ends =>
    rw [InTurn, waiting, List.filterMap_append]
    exact (List.append_nil _).symm ▸ inTurn
  | @handle op result rest tasks allowed =>
    have same : { dev with tasks := rest }.InTurn := by
      rw [InTurn, waiting, tasks] at inTurn
      exact inTurn
    exact same.undecided (dev.link.handler_undecided op result) _
  | @transmit packet rest tasks allowed =>
    refine inTurn_turn { dev with tasks := rest } ?_ env.lib
    rw [dev.link.runWrite_decides packet]
    rw [InTurn, waiting, tasks] at inTurn
    exact inTurn

end Device

namespace App

variable {env : Env} {d t : App}

-- The packets passed to `write_bytes`, and those whose closures have run, in order.
def posted (d : App) : List TxPacket := d.linkEvents.flatMap LinkEvent.packets

def decided (d : App) : List TxPacket := d.linkEvents.flatMap LinkEvent.decided

-- The packets of a generation: appended to the queue, and passed to `async_write`.
def appended (d : App) (g : Nat) : List TxPacket := d.linkEvents.filterMap (LinkEvent.appended g)

def issued (d : App) (g : Nat) : List TxPacket :=
  (d.linkEvents.flatMap LinkEvent.started).filterMap (LinkOp.written g)

-- The bytes that the device is sent in a generation.
def deviceStream (d : App) (g : Nat) : List UInt8 := ((d.issued g).map TxPacket.bytes).flatten

def Accepted (env : Env) (packet : TxPacket) : Prop :=
  ∃ now m, decodeMeta env.lib now packet.bytes = some (.ok m)

theorem linkEvents_onLink {turn : SerialLink × List LinkEvent} (handled : d.onLink env turn = some t) :
    t.linkEvents = d.linkEvents ++ turn.2 := by
  rw [← linkEvents_device, device_onLink handled, Device.turn_observed (fun _ _ => rfl),
    linkEvents_device]
  simp [Event.ofLink]

theorem posted_onLink {turn : SerialLink × List LinkEvent} (handled : d.onLink env turn = some t) :
    t.posted = d.posted ++ turn.2.flatMap LinkEvent.packets := by
  rw [posted, linkEvents_onLink handled, List.flatMap_append]
  rfl

theorem posted_send (d : App) (id : Nat) (f : Frame) : (d.send id f).posted = d.posted := by
  rw [posted, linkEvents, observed_send (fun _ _ => rfl)]
  rfl

theorem posted_broadcast (d : App) (f : Frame) : (d.broadcast f).posted = d.posted := by
  rw [posted, linkEvents, observed_broadcast (fun _ _ => rfl)]
  simp [posted, linkEvents, Event.ofLink]

-- `on_frame` inspects each packet before it is passed to `write_bytes`.
def Inspected (env : Env) (d : App) : Prop := ∀ packet ∈ d.posted, Accepted env packet

theorem Inspected.kept (inspected : d.Inspected env) (same : t.posted = d.posted) : t.Inspected env := by
  rw [Inspected, same]
  exact inspected

theorem Inspected.move {asker : Option Nat} (inspected : d.Inspected env) (move : Move env asker d t) :
    t.Inspected env := by
  cases move with
  | quiet same =>
    have history := same.history
    exact inspected.kept (by rw [posted, linkEvents, history]; rfl)
  | answered => exact inspected.kept (posted_send _ _ _)
  | turned turned _ handled =>
    have posts := posted_onLink handled
    rw [SerialLink.turn_unposted turned, List.append_nil] at posts
    exact inspected.kept posts
  | @sent d' data m now decoded _ _ posted =>
    intro packet member
    rw [posted_broadcast] at member
    change packet ∈ d'.posted at member
    rw [posted_onLink posted] at member
    rcases List.mem_append.mp member with before | here
    · exact inspected packet before
    · refine ⟨now, m, ?_⟩
      unfold SerialLink.writeBytes at here
      split at here
      next => cases here
      next =>
        obtain rfl := List.mem_singleton.mp here
        exact decoded

theorem Inspected.step {a : Action} (inspected : d.Inspected env) (taken : step env d a = .next t) :
    t.Inspected env := by
  refine step_preserves (fun _ _ _ before move => before.move move) (fun _ before _ => before) ?_
    inspected taken
  intro d id before _
  refine before.kept ?_
  rw [greet, posted_send, posted_send]
  rfl

theorem inTurn_reached {transport : Transport}
    (reached : Reaches (step env) (fun _ _ => True) (initial transport) d) :
    d.decided ++ d.ready.filterMap Task.closure = d.posted := by
  have any := reached.mono fun d a _ => meets_any d a
  have start : (initial transport).device.InTurn := rfl
  have inTurn : d.device.InTurn :=
    device_invariant (fun _ _ before stepped => Device.InTurn.step before stepped) start any
  have view : ∀ view : LinkEvent → List TxPacket,
      d.device.log.flatMap (fun event => event.ofLink.flatMap view) = d.linkEvents.flatMap view := by
    intro view
    rw [← List.flatMap_assoc, linkEvents_device]
  have decides : d.device.decided = d.decided := view LinkEvent.decided
  have posts : d.device.posted = d.posted := view LinkEvent.packets
  have waits : d.device.waiting = d.ready.filterMap Task.closure := closures_device d.ready
  rw [← decides, ← posts, ← waits]
  exact inTurn

theorem appended_sublist (d : App) (g : Nat) : (d.appended g).Sublist d.decided := by
  unfold appended decided
  induction d.linkEvents with
  | nil => exact .slnil
  | cons event events ih =>
    rw [List.flatMap_cons]
    cases event with
    | queued generation packet =>
      by_cases own : generation = g
      · rw [List.filterMap_cons_some (show LinkEvent.appended g (.queued _ _) = _ from if_pos own)]
        exact ih.cons_cons packet
      · rw [List.filterMap_cons_none (show LinkEvent.appended g (.queued _ _) = _ from if_neg own)]
        exact ih.cons packet
    | discarded packet => exact ih.cons packet
    | _ => exact ih

def Fated (g : Nat) (l : LinkLoop) : Prop :=
  l.link.Sound l.ops ∧ ∃ ends, Fate g l.link (packetsOf g l.state l.ops ends)

theorem inOrder_reached {transport : Transport} {l : LinkLoop}
    (reached : Reaches (EventLoop.step LinkRun.party) (fun _ _ => True) (LinkLoop.idle transport) l)
    (g : Nat) : ∃ ends, InOrder g l ends := by
  have step : ∀ l a t, Fated g l → True → EventLoop.step LinkRun.party l a = .next t → Fated g t := by
    rintro l a t ⟨sound, ends, fate⟩ - taken
    exact ⟨LinkLoop.sound_step sound taken, _, LinkLoop.fate_step sound fate taken⟩
  have start : Fated g (LinkLoop.idle transport) :=
    ⟨LinkLoop.sound_idle transport, [], LinkLoop.fate_idle transport⟩
  obtain ⟨sound, ends, fate⟩ := reached.invariant step start
  exact ⟨ends, LinkLoop.inOrder_of_fate sound fate⟩

-- No write is started while another one of the generation is outstanding.
theorem one_outstanding {l : LinkLoop} {ends : List WriteEnd} {g : Nat} (mirrors : d.device.Mirrors l)
    (order : InOrder g l ends) : (inFlight g (d.outstanding.filterMap Op.device?)).length ≤ 1 := by
  have all : (inFlight g l.ops).length ≤ 1 := by
    obtain ⟨last, split, flying⟩ := order.in_flight
    have few := order.one_at_a_time
    rw [split, List.length_append] at few
    rcases flying with one | none
    · rw [one]
      omega
    · simp [none]
  have ops : (d.device.ops.map LinkOp.outstanding).map EventLoop.Pending.op = d.device.ops := by
    rw [List.map_map]
    exact List.map_id _
  have perm := mirrors.pending.map EventLoop.Pending.op
  rw [List.map_append, ops] at perm
  have fewer := (perm.filterMap (LinkOp.written g)).length_eq
  rw [List.filterMap_append, List.length_append] at fewer
  change (inFlight g l.ops).length = (inFlight g d.device.ops).length + _ at fewer
  change (inFlight g d.device.ops).length ≤ 1
  omega

theorem inOrder_app {transport : Transport}
    (reached : Reaches (step env) (fun _ _ => True) (initial transport) d) (g : Nat) :
    ∃ l ends, d.device.Mirrors l ∧ InOrder g l ends := by
  obtain ⟨l, path, mirrors⟩ := mirrored_reached reached
  obtain ⟨ends, order⟩ := inOrder_reached path g
  exact ⟨l, ends, mirrors, order⟩

theorem issued_appended {transport : Transport}
    (reached : Reaches (step env) (fun _ _ => True) (initial transport) d) (g : Nat) :
    d.issued g <+: d.appended g := by
  obtain ⟨l, ends, mirrors, order⟩ := inOrder_app reached g
  have history : l.state.history.map Prod.snd = d.linkEvents := by
    rw [mirrors.history, linkEvents_device]
  have appended : Daemon.appended g l.state.history = d.appended g := by
    rw [App.appended, ← history, List.filterMap_map]
    rfl
  have issued : Daemon.written g l.state.history = d.issued g := by
    rw [App.issued, ← history, List.flatMap_map]
    rfl
  exact appended ▸ issued ▸ order.in_order

theorem inspected_reached {transport : Transport}
    (reached : Reaches (step env) (fun _ _ => True) (initial transport) d) : d.Inspected env :=
  reached.invariant (fun _ _ _ before _ taken => Inspected.step before taken) (fun _ member => by cases member)

theorem issued_declared {transport : Transport}
    (reached : Reaches (step env) (fun _ _ => True) (initial transport) d) (g : Nat) :
    ∀ packet ∈ (d.issued g).map TxPacket.bytes, Declared env.lib.declaredPacketSize packet := by
  intro bytes member
  obtain ⟨packet, issues, rfl⟩ := List.mem_map.mp member
  have known : packet ∈ d.posted := by
    rw [← inTurn_reached reached]
    exact List.mem_append_left _ ((appended_sublist d g).subset ((issued_appended reached g).subset issues))
  obtain ⟨now, m, decoded⟩ := inspected_reached reached packet known
  exact decodeMeta_accepts decoded

/-- In every reachable daemon the packets sent to the device in a generation are the first of those that
entered the queue then; all that clients had sent and the daemon had accepted are let into the queue, or
turned away, in the order that they came in. A framer at the other end of the connection hands on each
of them as its last byte arrives, and nothing else. -/
theorem device_stream (env : Env) (header : DependsOnHeader env.lib.declaredPacketSize)
    (length : DeclaresLength env.lib.declaredPacketSize) (transport : Transport) (d : App)
    (reached : Reaches (step env) (fun _ _ => True) (initial transport) d) :
    d.decided ++ d.ready.filterMap Task.closure = d.posted ∧
    (∀ packet ∈ d.posted, Accepted env packet) ∧
    ∀ g, d.issued g <+: d.appended g ∧ (d.appended g).Sublist d.decided ∧
      (inFlight g (d.outstanding.filterMap Op.device?)).length ≤ 1 ∧
      ∀ chunks : List (List UInt8), chunks.flatten <+: d.deviceStream g →
        (pushAll env.lib.declaredPacketSize {} chunks).2 =
          whole chunks.flatten.length ((d.issued g).map TxPacket.bytes) := by
  refine ⟨inTurn_reached reached, inspected_reached reached, fun g => ?_⟩
  obtain ⟨l, ends, mirrors, order⟩ := inOrder_app reached g
  refine ⟨issued_appended reached g, appended_sublist d g, one_outstanding mirrors order,
    fun chunks arrived => ?_⟩
  obtain ⟨part, -, framed⟩ := pushAll_stream header length (issued_declared reached g) chunks arrived
  rw [framed]

end App

-- Two packets have entered the queue; of the first, which is being written, the last bytes come late.
theorem device_stream_two_packets :
    let actions := clientSends [] [packetSend, packetSend] ++ List.replicate 3 .run
    ∃ d, run (App.step benchEnv) (App.initial benchPort) actions = some d ∧
      (d.appended 1).map TxPacket.bytes = [benchPacket, benchPacket] ∧
      d.deviceStream 1 = benchPacket ∧
      (pushAll benchEnv.lib.declaredPacketSize {} [benchPacket.take 6]).2 = [] ∧
      (pushAll benchEnv.lib.declaredPacketSize {} [benchPacket.take 6, benchPacket.drop 6]).2 =
        [benchPacket] := by
  intro actions
  have ran : (run (App.step benchEnv) (App.initial benchPort) actions).map (fun d =>
      ((d.appended 1).map TxPacket.bytes, (d.issued 1).map TxPacket.bytes)) =
      some ([benchPacket, benchPacket], [benchPacket]) := by decide +kernel
  obtain ⟨d, reached, lists⟩ := Option.map_eq_some_iff.mp ran
  obtain ⟨appended, issued⟩ := Prod.mk.inj lists
  have stream : d.deviceStream 1 = benchPacket := by
    rw [App.deviceStream, issued]
    rfl
  have frames := ((App.device_stream benchEnv Reference.dependsOnHeader Reference.declaresLength
    benchPort d (reaches_of_along (by decide +kernel) reached)).2.2 1).2.2.2
  rw [issued, stream] at frames
  exact ⟨d, reached, appended, stream, frames _ (by decide), frames _ (by decide)⟩

end ExnGs.Daemon
