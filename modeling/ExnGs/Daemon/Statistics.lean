import ExnGs.Daemon.Moves
import ExnGs.Daemon.Reception

set_option autoImplicit false

-- The counters of what was received, against what the link delivered and what was announced.
namespace ExnGs.Daemon

open Proto SpacePacket Framer Machine

def Event.received : Event → List UInt8
  | .link (.onBytes _ data) => data
  | _ => []

def Event.framedBytes : Event → List UInt8
  | .framed _ packet => packet
  | _ => []

def Event.notified : Event → List Frame
  | .broadcast f => if f.type = .PacketRx then [f] else []
  | _ => []

namespace Device

-- No bytes for the framer.
def Undelivering (dev : Device) : Task → Prop
  | .link (.read generation) (.ok _) => generation ≠ dev.link.generation
  | _ => True

theorem Undelivering.handler {dev : Device} {op : LinkOp} {result : Completion}
    (undelivering : dev.Undelivering (.link op result)) :
    ∀ event ∈ (dev.link.handler op result).2, event.delivers = false := by
  by_cases current : op.generation = dev.link.generation
  · have completed := SerialLink.handler_current current result
    generalize dev.link.handler op result = turn at completed
    cases completed with
    | read => exact absurd rfl undelivering
    | written =>
      rcases SerialLink.doWrite_cases { dev.link with txQueue := dev.link.txQueue.tail }
        dev.link.generation with none | ⟨_, _, starts⟩
      · simp [none]
      · simp [starts, LinkEvent.delivers]
    | _ => simp [LinkEvent.delivers]
  · rw [SerialLink.handler_stale current]
    simp

theorem undelivering_step {env : Env} {dev dev' : Device} (step : Step env Undelivering dev dev') :
    dev'.framer = dev.framer := by
  cases step with
  | start =>
    have started := dev.link.start_cases env.device
    generalize dev.link.start env.device = turn at started
    refine (turn_undelivered env.lib dev ?_).1
    cases started <;> simp [LinkEvent.delivers]
  | stop => exact (turn_undelivered env.lib dev (by simp [SerialLink.stop, LinkEvent.delivers])).1
  | @write data f _ long =>
    rw [SerialLink.writeBytes, if_neg long]
    exact (turn_undelivered env.lib dev (by simp [LinkEvent.delivers])).1
  | finish => rfl
  | @handle op result rest tasks allowed =>
    exact (turn_undelivered env.lib { dev with tasks := rest } (Undelivering.handler allowed)).1
  | @transmit packet rest tasks =>
    have written := dev.link.runWrite_cases packet
    generalize dev.link.runWrite packet = turn at written
    refine (turn_undelivered env.lib { dev with tasks := rest } ?_).1
    cases written <;> simp [LinkEvent.delivers]

theorem turn_read (lib : CcsdsPack) (dev : Device) (data : List UInt8) :
    (dev.turn lib (dev.link.handler (.read dev.link.generation) (.ok data))).framer =
      (pushBytes lib.declaredPacketSize dev.framer data).1 := by
  have current : (LinkOp.read dev.link.generation).generation = dev.link.generation := rfl
  have completed := SerialLink.handler_current current (.ok data)
  generalize dev.link.handler (.read dev.link.generation) (.ok data) = turn at completed
  cases completed with
  | read =>
    have later : ∀ event ∈ dev.link.doRead dev.link.generation, event.delivers = false := by
      rcases dev.link.doRead_cases dev.link.generation with none | starts
      · simp [none]
      · simp [starts, LinkEvent.delivers]
    by_cases empty : data = []
    · subst empty
      exact (turn_undelivered lib dev later).1
    · rw [if_neg empty]
      have reads : ((dev.onEvent lib (.onBytes dev.link.generation data)).turn lib
          (dev.link, dev.link.doRead dev.link.generation)).framer = _ :=
        (turn_undelivered lib _ later).1
      exact reads

end Device

namespace App

-- All bytes that the link has delivered.
def received (d : App) : List UInt8 := d.history.flatMap Event.received

def framedBytes (d : App) : List UInt8 := d.history.flatMap Event.framedBytes

-- The notifications of received packets.
def notified (d : App) : List Frame := d.history.flatMap Event.notified

/-- What STATS prints accounts for every packet and every byte received. -/
def AccountsForAll (d : App) : Prop :=
  d.state.snap.rxPackets = UInt64.ofNat d.notified.length + d.state.snap.decodeErrors ∧
  d.state.snap.rxBytes + d.state.snap.framingErrors + UInt64.ofNat d.framer.acc.length =
    UInt64.ofNat d.received.length ∧
  d.state.snap.framingErrors = d.framer.framingErrors

instance : DecidablePred AccountsForAll := fun _ => inferInstanceAs (Decidable (_ ∧ _ ∧ _))

/-- The packets that were cut and not handed on yet are `cut`. The store is never told of a byte that
the framer drops. -/
structure Books (d : App) (cut : List (List UInt8)) : Prop where
  packets : d.state.snap.rxPackets = UInt64.ofNat d.notified.length + d.state.snap.decodeErrors
  bytes : d.state.snap.rxBytes = UInt64.ofNat d.framedBytes.length
  untold : d.state.snap.framingErrors = 0
  stream : UInt64.ofNat (d.framedBytes.length + cut.flatten.length + d.framer.acc.length) +
    d.framer.framingErrors = UInt64.ofNat d.received.length

variable {env : Env} {d t : App} {cut : List (List UInt8)}

theorem Books.same (books : d.Books cut) (framer : t.framer = d.framer)
    (state : t.state.snap.rxPackets = d.state.snap.rxPackets ∧
      t.state.snap.rxBytes = d.state.snap.rxBytes ∧
      t.state.snap.decodeErrors = d.state.snap.decodeErrors ∧
      t.state.snap.framingErrors = d.state.snap.framingErrors)
    (observed : t.received = d.received ∧ t.framedBytes = d.framedBytes ∧ t.notified = d.notified) :
    t.Books cut := by
  obtain ⟨packets, bytes, decode, framing⟩ := state
  obtain ⟨received, framed, notified⟩ := observed
  constructor
  · rw [packets, notified, decode]
    exact books.packets
  · rw [bytes, framed]
    exact books.bytes
  · rw [framing]
    exact books.untold
  · rw [framed, framer, received]
    exact books.stream

theorem observed_log_link (d : App) {event : LinkEvent} (silent : event.delivers = false) :
    (d.log (.link event)).received = d.received ∧ (d.log (.link event)).framedBytes = d.framedBytes ∧
      (d.log (.link event)).notified = d.notified := by
  have nothing : Event.received (.link event) = [] := by
    cases event <;> first | rfl | cases silent
  simp [received, framedBytes, notified, log, nothing, Event.framedBytes, Event.notified]

theorem Books.send (books : d.Books cut) (id : Nat) (f : Frame) : (d.send id f).Books cut :=
  books.same rfl ⟨rfl, rfl, rfl, rfl⟩
    ⟨observed_send (fun _ _ => rfl) d id f, observed_send (fun _ _ => rfl) d id f,
      observed_send (fun _ _ => rfl) d id f⟩

theorem observed_broadcasts (d : App) (f : Frame) :
    (d.broadcast f).received = d.received ∧ (d.broadcast f).framedBytes = d.framedBytes ∧
      (d.broadcast f).notified = d.notified ++ Event.notified (.broadcast f) := by
  rw [received, framedBytes, notified, observed_broadcast (fun _ _ => rfl),
    observed_broadcast (fun _ _ => rfl), observed_broadcast (fun _ _ => rfl)]
  simp [Event.received, Event.framedBytes, received, framedBytes, notified]

theorem Books.broadcast (books : d.Books cut) {f : Frame} (other : f.type ≠ .PacketRx) :
    (d.broadcast f).Books cut := by
  obtain ⟨received, framed, notified⟩ := observed_broadcasts d f
  refine books.same (broadcast_framer d f) (by simp) ⟨received, framed, ?_⟩
  rw [notified]
  simp [Event.notified, other]

theorem Books.setLink (books : d.Books cut) (st : LinkState) (detail : Text) :
    (d.modifyState fun state => state.setLink st detail).publishLinkState.Books cut := by
  have set : (d.modifyState fun state => state.setLink st detail).Books cut :=
    books.same rfl ⟨rfl, rfl, rfl, rfl⟩ ⟨rfl, rfl, rfl⟩
  exact set.broadcast (show MsgType.LinkState ≠ .PacketRx by decide)

theorem observed_keep (d : App) (generation : Nat) (record : PacketRecord) :
    (d.keep generation record).received = d.received ∧
      (d.keep generation record).framedBytes = d.framedBytes ++ record.raw ∧
      (d.keep generation record).notified = d.notified := by
  simp [received, framedBytes, notified, keep, Event.received, Event.framedBytes, Event.notified]

-- Handing a packet on counts it, and with it its notification or its error.
theorem Books.onPacket {generation : Nat} {packet : List UInt8} (books : d.Books (packet :: cut))
    (handled : d.onPacket env generation packet = some t) : t.Books cut := by
  simp only [App.onPacket, Option.bind_eq_bind, Option.bind_eq_some_iff] at handled
  obtain ⟨decoded, _, handled⟩ := handled
  have raw := rxRecord_raw decoded (env.now (d.clock + 1)) packet
  generalize rxRecord decoded (env.now (d.clock + 1)) packet = record at handled raw
  obtain ⟨received, framed, notified⟩ := observed_keep d generation record
  have bytes : d.state.snap.rxBytes + UInt64.ofNat record.raw.length =
      UInt64.ofNat (d.keep generation record).framedBytes.length := by
    rw [framed, List.length_append, UInt64.ofNat_add, books.bytes]
  have stream : UInt64.ofNat ((d.keep generation record).framedBytes.length + cut.flatten.length +
      d.framer.acc.length) + d.framer.framingErrors =
        UInt64.ofNat (d.keep generation record).received.length := by
    rw [received, framed, raw, ← books.stream]
    simp [Nat.add_assoc]
  cases decoded with
  | error message =>
    cases handled
    have counted : ((d.keep generation record).modifyState .onDecodeError).Books cut := by
      refine ⟨?_, bytes, books.untold, stream⟩
      change d.state.snap.rxPackets + 1 =
        UInt64.ofNat (d.keep generation record).notified.length + (d.state.snap.decodeErrors + 1)
      rw [notified, books.packets, UInt64.add_assoc]
    exact counted.broadcast (show MsgType.Error ≠ .PacketRx by decide)
  | ok m =>
    cases handled
    obtain ⟨received', framed', notified'⟩ := observed_broadcasts (d.keep generation record)
      (makePacketFrame .PacketRx m (text "RX"))
    constructor
    · rw [notified', notified, List.length_append, broadcast_state]
      change d.state.snap.rxPackets + 1 = UInt64.ofNat (_ + 1) + d.state.snap.decodeErrors
      rw [books.packets, UInt64.ofNat_add, UInt64.add_assoc, UInt64.add_assoc,
        UInt64.add_comm d.state.snap.decodeErrors]
      rfl
    · rw [framed', broadcast_state]
      exact bytes
    · rw [broadcast_state]
      exact books.untold
    · rw [framed', received', broadcast_framer]
      exact stream

theorem Books.onPackets {generation : Nat} (packets : List (List UInt8)) {d : App}
    (books : d.Books packets)
    (handled : packets.foldlM (fun d packet => d.onPacket env generation packet) d = some t) :
    t.Books [] :=
  foldlM_invariant (motive := fun rest u => u.Books rest)
    (fun _ _ _ _ before taken => before.onPacket taken) packets books handled

theorem Books.delivered {data : List UInt8} {pushed : CcsdsFramer × List (List UInt8)} {dropped : Nat}
    (books : d.Books []) (generation : Nat)
    (balance : pushed.1.framingErrors = d.framer.framingErrors + UInt64.ofNat dropped ∧
      pushed.2.flatten.length + dropped + pushed.1.acc.length =
        d.framer.acc.length + data.length) :
    Books { d.log (.link (.onBytes generation data)) with framer := pushed.1 } pushed.2 := by
  obtain ⟨errors, octets⟩ := balance
  have stream := books.stream
  rw [List.flatten_nil, List.length_nil, Nat.add_zero] at stream
  have all : d.framedBytes.length + pushed.2.flatten.length + pushed.1.acc.length + dropped =
      d.framedBytes.length + d.framer.acc.length + data.length := by omega
  have received : (d.log (.link (.onBytes generation data))).received = d.received ++ data := by
    simp [App.received, log, Event.received]
  have framed : (d.log (.link (.onBytes generation data))).framedBytes = d.framedBytes := by
    simp [framedBytes, log, Event.framedBytes]
  refine ⟨?_, ?_, books.untold, ?_⟩
  · simpa [notified, log, Event.notified] using books.packets
  · simpa [framedBytes, log, Event.framedBytes] using books.bytes
  · change UInt64.ofNat ((d.log _).framedBytes.length + pushed.2.flatten.length +
      pushed.1.acc.length) + pushed.1.framingErrors = UInt64.ofNat (d.log _).received.length
    rw [framed, received, errors, List.length_append, UInt64.ofNat_add d.received.length, ← stream,
      UInt64.add_comm d.framer.framingErrors, ← UInt64.add_assoc, ← UInt64.ofNat_add, all,
      UInt64.ofNat_add _ data.length, UInt64.add_assoc, UInt64.add_assoc,
      UInt64.add_comm d.framer.framingErrors]

theorem Books.onLinkEvent {event : LinkEvent} (books : d.Books [])
    (handled : d.onLinkEvent env event = some t) : t.Books [] := by
  cases delivers : event.delivers with
  | false =>
    have logged : (d.log (.link event)).Books [] :=
      books.same rfl ⟨rfl, rfl, rfl, rfl⟩ (observed_log_link d delivers)
    cases event with
    | onState opened detail =>
      cases handled
      exact logged.setLink _ _
    | onError err =>
      cases handled
      exact logged.setLink _ _
    | onBytes => cases delivers
    | _ =>
      cases handled
      exact logged.same rfl ⟨rfl, rfl, rfl, rfl⟩ ⟨rfl, rfl, rfl⟩
  | true =>
    cases event with
    | onBytes generation data =>
      have balance := pushBytes_balance env.lib.declaredPacketSize d.framer data
      change (pushBytes env.lib.declaredPacketSize d.framer data).2.foldlM _
        { d.log (.link (.onBytes generation data)) with
          framer := (pushBytes env.lib.declaredPacketSize d.framer data).1 } = some t at handled
      generalize pushBytes env.lib.declaredPacketSize d.framer data = pushed at handled balance
      exact (books.delivered generation balance).onPackets _ handled
    | _ => cases delivers

theorem Books.onLink {turn : SerialLink × List LinkEvent} (books : d.Books [])
    (handled : d.onLink env turn = some t) : t.Books [] := by
  have turned : Books { d with link := turn.1 } [] :=
    books.same rfl ⟨rfl, rfl, rfl, rfl⟩ ⟨rfl, rfl, rfl⟩
  exact foldlM_invariant (motive := fun _ u => u.Books [])
    (fun _ _ _ _ before taken => before.onLinkEvent taken) turn.2 turned handled

theorem Books.move {asker : Option Nat} (books : d.Books []) (move : Move env asker d t) :
    t.Books [] := by
  cases move with
  | quiet same =>
    have history := same.history
    refine books.same same.framer (by simp [same.state]) ⟨?_, ?_, ?_⟩
    · rw [received, received, history]
    · rw [framedBytes, framedBytes, history]
    · rw [notified, notified, history]
  | answered => exact books.send _ _
  | turned _ _ handled => exact books.onLink handled
  | @sent d' data m now _ _ _ posted =>
    have counted : (d'.modifyState fun state => state.onTx data.length).Books [] :=
      (books.onLink posted).same rfl ⟨rfl, rfl, rfl, rfl⟩ ⟨rfl, rfl, rfl⟩
    exact counted.broadcast (show MsgType.PacketTx ≠ .PacketRx by decide)

theorem Books.step {a : Action} (books : d.Books []) (taken : step env d a = .next t) :
    t.Books [] := by
  have moves : ∀ asker d t, Books d [] → Move env asker d t → Books t [] :=
    fun _ _ _ books move => books.move move
  have welcomes : ∀ d, Books d [] → d.greeting = none → d.welcome.Books [] :=
    fun _ books _ => books.same rfl ⟨rfl, rfl, rfl, rfl⟩ ⟨rfl, rfl, rfl⟩
  have greets : ∀ d id, Books d [] → d.greeting = some id → (d.greet id).Books [] := by
    intro d id books _
    have greeting : Books { d with rest := none } [] :=
      books.same rfl ⟨rfl, rfl, rfl, rfl⟩ ⟨rfl, rfl, rfl⟩
    exact (greeting.send _ _).send _ _
  exact step_preserves moves welcomes greets books taken

-- What is kept in the books adds up to what is claimed of them just when the framer has lost nothing.
theorem Books.accountsForAll_iff (books : d.Books []) :
    d.AccountsForAll ↔ d.framer.framingErrors = 0 := by
  have stream := books.stream
  rw [List.flatten_nil, List.length_nil, Nat.add_zero] at stream
  rw [AccountsForAll, books.untold, books.bytes]
  constructor
  · rintro ⟨_, _, same⟩
    exact same.symm
  · intro none
    rw [none, UInt64.add_zero] at stream
    rw [UInt64.add_zero, ← UInt64.ofNat_add]
    exact ⟨books.packets, stream, none.symm⟩

-- The bytes of a read that is about to be handled.
def delivery (d : App) : Action → Option (List UInt8)
  | .finish _ _ => none
  | .run =>
    match d.rest, d.ready with
    | none, .link (.read generation) (.ok data) :: _ =>
      if generation = d.link.generation then some data else none
    | _, _ => none

/-- The bytes delivered do not make the framer drop any, or they make it drop so many that its counter
comes round. -/
def KeepsInStep (env : Env) (d : App) (a : Action) : Prop :=
  ∀ data ∈ d.delivery a, ∀ t, step env d a = .next t →
    dropped env.lib.declaredPacketSize d.framer data % 2 ^ 64 = 0

theorem step_framer {a : Action} (taken : step env d a = .next t) :
    t.framer.framingErrors = d.framer.framingErrors +
      UInt64.ofNat (((d.delivery a).map (dropped env.lib.declaredPacketSize d.framer)).getD 0) := by
  cases delivers : d.delivery a with
  | none =>
    have met : d.Meets Device.Undelivering a := by
      cases a with
      | finish => trivial
      | run =>
        simp only [Meets]
        split
        next task ready idle queued =>
          intro _
          simp only [delivery, idle, queued] at delivers
          cases task with
          | link op result =>
            cases op <;> cases result <;> first | trivial | skip
            intro current
            exact absurd ((if_pos current).symm.trans delivers) (by simp)
          | _ => trivial
        next => trivial
    have same : ∀ dev dev' : Device, dev.framer = d.framer →
        Device.Step env Device.Undelivering dev dev' → dev'.framer = d.framer :=
      fun _ _ same step => (Device.undelivering_step step).trans same
    have framer : t.framer = d.framer :=
      Device.steps_invariant same (show d.device.framer = _ from rfl) (deviceSteps_step met taken)
    simp [framer]
  | some data =>
    cases a with
    | finish => cases delivers
    | run =>
      simp only [delivery] at delivers
      split at delivers
      next generation read ready idle queued =>
        split at delivers
        next current =>
          cases delivers
          simp only [step, idle, queued] at taken
          have turned := device_onLink (Machine.outcome_eq_next taken)
          have framer := congrArg Device.framer turned
          subst current
          have read := Device.turn_read env.lib { d with rest := none, ready }.device data
          change t.framer = _ at framer
          rw [framer.trans read]
          exact (pushBytes_balance _ _ _).1
        next => cases delivers
      next => cases delivers

def Balanced (d : App) : Prop := d.Books [] ∧ d.framer.framingErrors = 0

theorem balanced_step_iff {a : Action} (balanced : d.Balanced) (taken : step env d a = .next t) :
    t.framer.framingErrors = 0 ↔ KeepsInStep env d a := by
  have framer := step_framer taken
  rw [balanced.2, UInt64.zero_add] at framer
  rw [framer, ← UInt64.toNat_inj, UInt64.toNat_ofNat']
  cases delivers : d.delivery a with
  | none => simp [KeepsInStep, delivers]
  | some data =>
    simp only [KeepsInStep, delivers, Option.mem_some_iff, forall_eq', Option.map_some,
      Option.getD_some]
    constructor
    · exact fun none _ _ => none
    · exact fun keeps => keeps t taken

theorem after_accountsForAll_iff {a : Action} (balanced : d.Balanced) :
    After (step env) AccountsForAll d a ↔ KeepsInStep env d a := by
  constructor
  · intro accounts data delivers t taken
    have books := balanced.1.step taken
    have none := books.accountsForAll_iff.mp (accounts t taken)
    exact (balanced_step_iff balanced taken).mp none data delivers t taken
  · intro keeps t taken
    have books := balanced.1.step taken
    exact books.accountsForAll_iff.mpr ((balanced_step_iff balanced taken).mpr keeps)

/-- In every run what STATS prints accounts for everything received after each step, just as long as
no bytes that the link delivers make the framer drop any. -/
theorem along_accountsForAll_iff (env : Env) (transport : Transport) (actions : List Action) :
    Along (step env) (After (step env) AccountsForAll) (initial transport) actions ↔
      Along (step env) (KeepsInStep env) (initial transport) actions := by
  have preserved : ∀ d a t, Balanced d → KeepsInStep env d a → step env d a = .next t →
      Balanced t :=
    fun _ _ _ balanced keeps taken =>
      ⟨balanced.1.step taken, (balanced_step_iff balanced taken).mpr keeps⟩
  have start : (initial transport).Balanced := ⟨⟨rfl, rfl, rfl, rfl⟩, rfl⟩
  exact along_iff (fun _ _ => after_accountsForAll_iff) preserved start actions

end App

-- One byte of noise on the line is counted nowhere.
theorem statistics_lose_noise :
    ¬ ∀ actions, Along (App.step benchEnv) (After (App.step benchEnv) App.AccountsForAll)
      (App.initial benchPort) actions := by
  intro accounts
  have run := accounts [.run, .finish 1 (.ok (0xFF :: benchPacket)), .run]
  revert run
  decide +kernel

end ExnGs.Daemon
