import ExnGs.Daemon.Device
import ExnGs.Shared.ReferencePack

set_option autoImplicit false

-- What becomes of the packets that the daemon counts and announces as sent.
namespace ExnGs.Daemon

open Proto SpacePacket Machine

def Event.accepted : Event → List TxPacket
  | .link (.post packet) => [packet]
  | _ => []

def Event.queued : Event → List TxPacket
  | .link (.queued _ packet) => [packet]
  | _ => []

def Event.discarded : Event → List TxPacket
  | .link (.discarded packet) => [packet]
  | _ => []

def Event.settled (event : Event) : List TxPacket := event.queued ++ event.discarded

def Event.announced : Event → List Frame
  | .broadcast f => if f.type = .PacketTx then [f] else []
  | _ => []

def Task.waiting : Task → List TxPacket
  | .transmit packet => [packet]
  | _ => []

def octets (packets : List TxPacket) : Nat := (packets.map fun packet => packet.bytes.length).sum

def LinkEvent.carriesPacket : LinkEvent → Bool
  | .post _ | .queued _ _ | .discarded _ => true
  | _ => false

theorem Event.accepted_quiet {event : LinkEvent} (none : event.carriesPacket = false) :
    Event.accepted (.link event) = [] := by
  cases event <;> first | rfl | cases none

theorem Event.discarded_quiet {event : LinkEvent} (none : event.carriesPacket = false) :
    Event.discarded (.link event) = [] := by
  cases event <;> first | rfl | cases none

theorem Event.settled_quiet {event : LinkEvent} (none : event.carriesPacket = false) :
    Event.settled (.link event) = [] := by
  cases event <;> first | rfl | cases none

namespace SerialLink

theorem start_carries_none (device : Nat → SerialOpen) (link : SerialLink) :
    ∀ event ∈ (link.start device).2, event.carriesPacket = false := by
  have started := link.start_cases device
  generalize link.start device = turn at started
  cases started <;> simp [LinkEvent.carriesPacket]

theorem stop_carries_none (link : SerialLink) :
    ∀ event ∈ link.stop.2, event.carriesPacket = false := by
  simp [stop, LinkEvent.carriesPacket]

theorem handler_carries_none (link : SerialLink) (op : LinkOp) (result : Completion) :
    ∀ event ∈ (link.handler op result).2, event.carriesPacket = false := by
  have handled := link.handler_cases op result
  generalize link.handler op result = turn at handled
  cases handled with
  | read reads =>
    rcases reads with rfl | rfl <;> split <;> simp [LinkEvent.carriesPacket]
  | written writes =>
    rcases writes with rfl | ⟨_, _, rfl⟩ <;> simp [LinkEvent.carriesPacket]
  | _ => simp [LinkEvent.carriesPacket]

end SerialLink

namespace Device

theorem quiet_observed {β : Type} {observe : Event → List β}
    (framed : ∀ generation packet, observe (.framed generation packet) = [])
    (ignores : ∀ event, event.carriesPacket = false → observe (.link event) = []) (lib : CcsdsPack)
    (dev : Device) {turn : SerialLink × List LinkEvent}
    (quiet : ∀ event ∈ turn.2, event.carriesPacket = false) :
    (dev.turn lib turn).log.flatMap observe = dev.log.flatMap observe := by
  have nothing : turn.2.flatMap (fun event => observe (.link event)) = [] :=
    List.flatMap_eq_nil_iff.mpr fun event member => ignores event (quiet event member)
  rw [turn_observed framed, nothing, List.append_nil]

theorem quiet_posts {events : List LinkEvent}
    (quiet : ∀ event ∈ events, event.carriesPacket = false) :
    events.flatMap LinkEvent.posted = [] := by
  refine List.flatMap_eq_nil_iff.mpr fun event member => ?_
  have none := quiet event member
  cases event <;> first | rfl | cases none

theorem quiet_tasks (lib : CcsdsPack) (dev : Device) {turn : SerialLink × List LinkEvent}
    (quiet : ∀ event ∈ turn.2, event.carriesPacket = false) :
    (dev.turn lib turn).tasks = dev.tasks := by
  rw [turn_tasks, quiet_posts quiet, List.append_nil]

/-- Every packet counted was announced, and its closure has run or is waiting to. -/
structure Accounted (dev : Device) : Prop where
  conserved : dev.log.flatMap Event.accepted =
    dev.log.flatMap Event.settled ++ dev.tasks.flatMap Task.waiting
  announced : (dev.log.flatMap Event.announced).length = (dev.log.flatMap Event.accepted).length
  packets : dev.txPackets = UInt64.ofNat (dev.log.flatMap Event.accepted).length
  bytes : dev.txBytes = UInt64.ofNat (octets (dev.log.flatMap Event.accepted))

variable {dev : Device}

theorem Accounted.turn (accounted : dev.Accounted) (lib : CcsdsPack)
    (turn : SerialLink × List LinkEvent)
    (quiet : ∀ event ∈ turn.2, event.carriesPacket = false) : (dev.turn lib turn).Accounted := by
  have counts := turn_counts lib dev turn
  have accepted : (dev.turn lib turn).log.flatMap Event.accepted = dev.log.flatMap Event.accepted :=
    quiet_observed (fun _ _ => rfl) (fun _ => Event.accepted_quiet) lib dev quiet
  have settled : (dev.turn lib turn).log.flatMap Event.settled = dev.log.flatMap Event.settled :=
    quiet_observed (fun _ _ => rfl) (fun _ => Event.settled_quiet) lib dev quiet
  have announced :
      (dev.turn lib turn).log.flatMap Event.announced = dev.log.flatMap Event.announced :=
    quiet_observed (fun _ _ => rfl) (fun _ _ => rfl) lib dev quiet
  constructor
  · rw [accepted, settled, quiet_tasks lib dev quiet]
    exact accounted.conserved
  · rw [accepted, announced]
    exact accounted.announced
  · rw [accepted, counts.1]
    exact accounted.packets
  · rw [accepted, counts.2]
    exact accounted.bytes

theorem Accounted.write (accounted : dev.Accounted) (lib : CcsdsPack) {data : List UInt8} {f : Frame}
    (long : data ≠ []) (type : f.type = .PacketTx) :
    ((dev.turn lib (dev.link, dev.link.writeBytes data)).announce data f).Accounted := by
  rw [SerialLink.writeBytes, if_neg long]
  constructor
  · simp [Device.turn, onEvent, announce, Event.accepted, Event.settled, Event.queued,
      Event.discarded, Task.waiting, accounted.conserved]
  · simp [Device.turn, onEvent, announce, Event.accepted, Event.announced, type, accounted.announced]
  · simp [Device.turn, onEvent, announce, Event.accepted, accounted.packets, UInt64.ofNat_add]
  · simp [Device.turn, onEvent, announce, Event.accepted, accounted.bytes, UInt64.ofNat_add, octets]

theorem Accounted.settle (accounted : dev.Accounted) {packet : TxPacket} {rest : List Task}
    (tasks : dev.tasks = .transmit packet :: rest) {event : LinkEvent}
    (settles : Event.settled (.link event) = [packet]) (accepts : Event.accepted (.link event) = []) :
    ({ dev with tasks := rest, log := dev.log ++ [.link event] } : Device).Accounted := by
  have conserved := accounted.conserved
  rw [tasks, List.flatMap_cons, Task.waiting] at conserved
  constructor
  · simp [settles, accepts, conserved]
  · simp [accepts, Event.announced, accounted.announced]
  · simp [accepts, accounted.packets]
  · simp [accepts, accounted.bytes]

theorem Accounted.transmit (accounted : dev.Accounted) {packet : TxPacket} {rest : List Task}
    (tasks : dev.tasks = .transmit packet :: rest) (lib : CcsdsPack) :
    ({ dev with tasks := rest }.turn lib (dev.link.runWrite packet)).Accounted := by
  have queued : ({ dev with
      tasks := rest
      log := dev.log ++ [.link (.queued dev.link.generation packet)] } : Device).Accounted :=
    accounted.settle tasks rfl rfl
  have written := dev.link.runWrite_cases packet
  generalize dev.link.runWrite packet = turn at written
  cases written with
  | dropped => exact accounted.settle tasks rfl rfl
  | behind => exact queued.turn lib (_, []) (by simp)
  | first => exact queued.turn lib (_, [_]) (by simp [LinkEvent.carriesPacket])

theorem Accounted.step {env : Env} {may : Device → Task → Prop} {dev' : Device}
    (accounted : dev.Accounted) (step : Step env may dev dev') : dev'.Accounted := by
  cases step with
  | start => exact accounted.turn _ _ (SerialLink.start_carries_none _ _)
  | stop => exact accounted.turn _ _ (SerialLink.stop_carries_none _)
  | write _ long type => exact accounted.write _ long type
  | finish =>
    refine ⟨?_, accounted.announced, accounted.packets, accounted.bytes⟩
    simpa [Task.waiting] using accounted.conserved
  | @handle op result rest tasks =>
    have taken : ({ dev with tasks := rest } : Device).Accounted := by
      refine ⟨?_, accounted.announced, accounted.packets, accounted.bytes⟩
      simpa [tasks, Task.waiting] using accounted.conserved
    exact taken.turn _ _ (SerialLink.handler_carries_none _ _ _)
  | transmit tasks => exact accounted.transmit tasks _

def FindsOpen (dev : Device) : Task → Prop
  | .transmit _ => dev.link.opened = true
  | _ => True

theorem discarded_step {env : Env} {dev' : Device} (kept : dev.log.flatMap Event.discarded = [])
    (step : Step env FindsOpen dev dev') : dev'.log.flatMap Event.discarded = [] := by
  have unchanged : ∀ (dev : Device) {turn : SerialLink × List LinkEvent},
      (∀ event ∈ turn.2, event.carriesPacket = false) →
      (dev.turn env.lib turn).log.flatMap Event.discarded = dev.log.flatMap Event.discarded :=
    fun dev _ quiet =>
      quiet_observed (fun _ _ => rfl) (fun _ => Event.discarded_quiet) env.lib dev quiet
  cases step with
  | start => rw [unchanged _ (SerialLink.start_carries_none _ _), kept]
  | stop => rw [unchanged _ (SerialLink.stop_carries_none _), kept]
  | write _ long type =>
    rw [SerialLink.writeBytes, if_neg long]
    simp [Device.turn, onEvent, announce, Event.discarded, kept]
  | finish => exact kept
  | handle => rw [unchanged _ (SerialLink.handler_carries_none _ _ _), kept]
  | @transmit packet rest tasks allowed =>
    have written := dev.link.runWrite_cases packet
    generalize dev.link.runWrite packet = turn at written
    rw [turn_observed (fun _ _ => rfl), kept, List.nil_append]
    cases written with
    | dropped closed => exact absurd allowed (Bool.eq_false_iff.mp closed)
    | behind => rfl
    | first => rfl

end Device

theorem settled_queued {history : List Event} (kept : history.flatMap Event.discarded = []) :
    history.flatMap Event.settled = history.flatMap Event.queued := by
  induction history with
  | nil => rfl
  | cons event history ih =>
    rw [List.flatMap_cons, List.append_eq_nil_iff] at kept
    rw [List.flatMap_cons, List.flatMap_cons, ih kept.2, Event.settled, kept.1, List.append_nil]

namespace App

-- The packets that were appended to `tx_queue_`, and those whose closure is still posted.
def counted (d : App) : List TxPacket :=
  d.history.flatMap Event.queued ++ d.ready.flatMap Task.waiting

/-- The counters and the notifications say what was or will be queued, and nothing was dropped. -/
def Truthful (d : App) : Prop :=
  d.state.snap.txPackets.toNat = d.counted.length ∧
  (d.history.flatMap Event.announced).length = d.counted.length ∧
  d.state.snap.txBytes.toNat = octets d.counted ∧
  d.history.flatMap Event.discarded = []

instance : DecidablePred Truthful := fun _ => inferInstanceAs (Decidable (_ ∧ _ ∧ _ ∧ _))

def FitsCounters (d : App) : Prop :=
  (d.history.flatMap Event.accepted).length < 2 ^ 64 ∧
  octets (d.history.flatMap Event.accepted) < 2 ^ 64

theorem observed_device {β : Type} {observe : Event → List β} (d : App)
    (others : ∀ event, event.isDevice = false → observe event = []) :
    d.device.log.flatMap observe = d.history.flatMap observe :=
  flatMap_filter_own others d.history

theorem accepted_other {event : Event} (other : event.isDevice = false) : event.accepted = [] := by
  cases event <;> first | rfl | cases other

theorem discarded_other {event : Event} (other : event.isDevice = false) : event.discarded = [] := by
  cases event <;> first | rfl | cases other

theorem settled_other {event : Event} (other : event.isDevice = false) : event.settled = [] := by
  cases event <;> first | rfl | cases other

theorem announced_other {event : Event} (other : event.isDevice = false) : event.announced = [] := by
  cases event with
  | broadcast f => simpa [Event.isDevice, Event.announced] using other
  | _ => rfl

theorem waiting_other {task : Task} (other : task.isDevice = false) : task.waiting = [] := by
  cases task <;> first | rfl | cases other

theorem truthful_iff {d : App} (accounted : d.device.Accounted)
    (kept : d.history.flatMap Event.discarded = []) : d.Truthful ↔ d.FitsCounters := by
  have conserved := accounted.conserved
  have announced := accounted.announced
  have packets := accounted.packets
  have bytes := accounted.bytes
  have waiting : d.device.tasks.flatMap Task.waiting = d.ready.flatMap Task.waiting :=
    flatMap_filter_own (fun _ => waiting_other) d.ready
  rw [d.observed_device fun _ => accepted_other] at conserved announced packets bytes
  rw [d.observed_device fun _ => settled_other, settled_queued kept, waiting] at conserved
  rw [d.observed_device fun _ => announced_other] at announced
  change d.state.snap.txPackets = _ at packets
  change d.state.snap.txBytes = _ at bytes
  have counted : d.counted = d.history.flatMap Event.accepted := conserved.symm
  rw [Truthful, FitsCounters, counted, packets, bytes]
  constructor
  · rintro ⟨packets, _, bytes, _⟩
    rw [← packets, ← bytes]
    exact ⟨UInt64.toNat_lt _, UInt64.toNat_lt _⟩
  · rintro ⟨few, small⟩
    exact ⟨UInt64.toNat_ofNat_of_lt' few, announced, UInt64.toNat_ofNat_of_lt' small, kept⟩

theorem transmit_discards (env : Env) {d : App} {packet : TxPacket} {ready : List Task}
    (idle : d.rest = none) (queued : d.ready = .transmit packet :: ready)
    (closed : d.link.opened = false) :
    step env d .run = .next ({ d with ready }.log (.link (.discarded packet))) := by
  simp only [step, idle, queued, runTask, SerialLink.runWrite, closed, if_true]
  rfl

def SendsWhileOpen (env : Env) (d : App) (a : Action) : Prop :=
  d.Meets Device.FindsOpen a ∧ After (step env) FitsCounters d a

variable {env : Env}

theorem accounted_step {d t : App} {a : Action} (accounted : d.device.Accounted)
    (taken : step env d a = .next t) : t.device.Accounted := by
  exact Device.steps_invariant (fun _ _ accounted step => accounted.step step) accounted
    (deviceSteps_step (d.meets_any a) taken)

theorem kept_step {d t : App} {a : Action} (kept : d.history.flatMap Event.discarded = [])
    (finds : d.Meets Device.FindsOpen a) (taken : step env d a = .next t) :
    t.history.flatMap Event.discarded = [] := by
  rw [← observed_device _ fun _ => discarded_other] at kept ⊢
  exact Device.steps_invariant (fun _ _ => Device.discarded_step) kept (deviceSteps_step finds taken)

def Honest (d : App) : Prop :=
  d.device.Accounted ∧ d.history.flatMap Event.discarded = []

theorem after_truthful_iff {d : App} {a : Action} (honest : d.Honest) :
    After (step env) Truthful d a ↔ SendsWhileOpen env d a := by
  constructor
  · intro truthful
    refine ⟨?_, fun t taken => ?_⟩
    · cases a with
      | finish => trivial
      | run =>
        simp only [Meets]
        split
        next task ready idle queued =>
          cases task with
          | transmit packet =>
            intro _
            by_contra closed
            have dropped := transmit_discards env idle queued (Bool.eq_false_iff.mpr closed)
            have kept := (truthful _ dropped).2.2.2
            simp [log, Event.discarded] at kept
          | _ => exact fun _ => trivial
        next => trivial
    -- Nothing dropped means that what is counted is what was accepted.
    · have all := truthful t taken
      exact (truthful_iff (accounted_step honest.1 taken) all.2.2.2).mp all
  · rintro ⟨finds, fits⟩ t taken
    exact (truthful_iff (accounted_step honest.1 taken) (kept_step honest.2 finds taken)).mpr
      (fits t taken)

/-- In every run the counters and notifications of the daemon are truthful after each step just as
long as closures run while the link is open and the counters are wide enough. -/
theorem along_truthful_iff (env : Env) (transport : Transport) (actions : List Action) :
    Along (step env) (After (step env) Truthful) (initial transport) actions ↔
      Along (step env) (SendsWhileOpen env) (initial transport) actions := by
  have preserved : ∀ d a t, Honest d → SendsWhileOpen env d a → step env d a = .next t → Honest t :=
    fun _ _ _ honest sends taken =>
      ⟨accounted_step honest.1 taken, kept_step honest.2 sends.1 taken⟩
  have start : (initial transport).Honest := ⟨⟨rfl, rfl, rfl, rfl⟩, rfl⟩
  exact along_iff (fun _ _ => after_truthful_iff) preserved start actions

end App

def benchEnv : Env where
  lib := Reference.pack
  now := fun _ => 0
  device := fun _ => .opened

def benchPort : Transport := { port := text "/dev/ttyACM0" }

def benchTcp : Transport where
  isTcp := true
  tcpHost := text "localhost"
  tcpPort := 5000
  port := text "tcp://localhost:5000"

def benchPacket : List UInt8 := [0, 0, 0xC0, 0, 0, 0, 42]

def packetSend : Frame := { type := .PacketSend, payload := benchPacket }

def command (name : String) : Frame := { type := .Command, payload := packString (text name) }

-- When the link is up a client connects, is greeted, and all it sends comes in one read. The last turn
-- of the loop that decodes finds no frame.
def clientSends (linkUp : List App.Action) (fs : List Frame) : List App.Action :=
  .run :: linkUp ++
    [.finish 0 (.ok []), .run, .run, .finish 1 (.ok (encodeAll fs)), .run, .run, .run] ++
    fs.map (fun _ => .run) ++ [.run]

-- A packet and the command to disconnect come in one read, so that the link is closed when the closure
-- of the packet runs.
theorem truthful_discards_packet :
    ¬ ∀ actions, Along (App.step benchEnv) (After (App.step benchEnv) App.Truthful)
      (App.initial benchPort) actions := by
  intro truthful
  have run := truthful (clientSends [] [packetSend, command "DISCONNECT"] ++ [.run])
  revert run
  decide +kernel

end ExnGs.Daemon
