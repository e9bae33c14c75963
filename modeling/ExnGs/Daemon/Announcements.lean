import ExnGs.Daemon.Statistics
import ExnGs.Shared.FramerDecode

set_option autoImplicit false

-- Every packet that the framer emits is decoded, and announced by one PacketRx.
namespace ExnGs.Daemon

open Proto SpacePacket Framer Machine

def Event.packet : Event → List (List UInt8)
  | .framed _ packet => [packet]
  | _ => []

namespace App

-- The packets that the framer has handed on.
def framedPackets (d : App) : List (List UInt8) := d.history.flatMap Event.packet

-- The frame carries what `decode_meta` makes of the packet, at some reading of the clock.
def Announces (env : Env) (f : Frame) (packet : List UInt8) : Prop :=
  ∃ reading m, decodeMeta env.lib (env.now reading) packet = some (.ok m) ∧
    m.len.toNat + 7 = packet.length ∧ f = makePacketFrame .PacketRx m (text "RX")

/-- From one state to another these packets were handed on, in this order, each of them was announced
once, and no decode error was counted. -/
structure HandsOn (env : Env) (packets : List (List UInt8)) (d t : App) : Prop where
  errors : t.state.snap.decodeErrors = d.state.snap.decodeErrors
  framed : t.framedPackets = d.framedPackets ++ packets
  announced : ∃ frames, t.notified = d.notified ++ frames ∧
    List.Forall₂ (Announces env) frames packets

variable {env : Env} {d t : App}

theorem HandsOn.none (errors : t.state.snap.decodeErrors = d.state.snap.decodeErrors)
    (framed : t.framedPackets = d.framedPackets) (notified : t.notified = d.notified) :
    HandsOn env [] d t :=
  ⟨errors, by simp [framed], [], by simp [notified], .nil⟩

theorem HandsOn.refl (d : App) : HandsOn env [] d d := .none rfl rfl rfl

theorem HandsOn.trans {u : App} {packets later : List (List UInt8)}
    (first : HandsOn env packets d t) (second : HandsOn env later t u) :
    HandsOn env (packets ++ later) d u := by
  obtain ⟨frames, notified, announced⟩ := first.announced
  obtain ⟨more, notified', announced'⟩ := second.announced
  refine ⟨second.errors.trans first.errors, ?_, frames ++ more, ?_, ?_⟩
  · rw [second.framed, first.framed, List.append_assoc]
  · rw [notified', notified, List.append_assoc]
  · exact List.rel_append announced announced'

-- What hands nothing on may come first.
theorem HandsOn.after {u : App} {packets : List (List UInt8)} (quiet : HandsOn env [] d t)
    (later : HandsOn env packets t u) : HandsOn env packets d u :=
  quiet.trans later

theorem HandsOn.same (same : d.Same t) : HandsOn env [] d t := by
  have history := same.history
  refine .none (by rw [same.state]) ?_ ?_
  · rw [framedPackets, framedPackets, history]
  · rw [notified, notified, history]

theorem HandsOn.send (d : App) (id : Nat) (f : Frame) : HandsOn env [] d (d.send id f) :=
  .none rfl (observed_send (fun _ _ => rfl) d id f) (observed_send (fun _ _ => rfl) d id f)

theorem framedPackets_broadcast (d : App) (f : Frame) :
    (d.broadcast f).framedPackets = d.framedPackets := by
  rw [framedPackets, observed_broadcast (fun _ _ => rfl)]
  simp [Event.packet, framedPackets]

theorem HandsOn.broadcast (d : App) {f : Frame} (other : f.type ≠ .PacketRx) :
    HandsOn env [] d (d.broadcast f) := by
  refine .none (by rw [broadcast_state]) (framedPackets_broadcast d f) ?_
  rw [(observed_broadcasts d f).2.2]
  simp [Event.notified, other]

theorem HandsOn.setLink (d : App) (st : LinkState) (detail : Text) :
    HandsOn env [] d (d.modifyState fun state => state.setLink st detail).publishLinkState := by
  have set : HandsOn env [] d (d.modifyState fun state => state.setLink st detail) :=
    .none rfl rfl rfl
  exact set.after (.broadcast _ (show MsgType.LinkState ≠ .PacketRx by decide))

theorem HandsOn.log_link (d : App) {event : LinkEvent} :
    HandsOn env [] d (d.log (.link event)) := by
  refine .none rfl ?_ ?_
  · simp [framedPackets, log, Event.packet]
  · simp [notified, log, Event.notified]

-- What the callback does with a packet that `decode_meta` accepts.
theorem onPacket_announces {packet : List UInt8}
    (accepts : ∀ now, ∃ m, decodeMeta env.lib now packet = some (.ok m) ∧
      m.len.toNat + 7 = packet.length) (generation : Nat) (d : App) :
    ∃ t, d.onPacket env generation packet = some t ∧ HandsOn env [packet] d t := by
  obtain ⟨m, accepted, len⟩ := accepts (env.now d.clock)
  have announces : Announces env (makePacketFrame .PacketRx m (text "RX")) packet :=
    ⟨d.clock, m, accepted, len, rfl⟩
  have kept := (observed_keep d generation (rxRecord (.ok m) (env.now (d.clock + 1)) packet)).2.2
  refine ⟨_, by simp only [onPacket, accepted]; rfl, ?_, ?_, _, ?_, .cons announces .nil⟩
  · rw [broadcast_state]
    rfl
  · rw [framedPackets_broadcast]
    simp [framedPackets, keep, Event.packet, rxRecord]
  · rw [(observed_broadcasts _ _).2.2, kept]
    rfl

theorem onPackets_announces {packets : List (List UInt8)}
    (accepts : ∀ packet ∈ packets, ∀ now, ∃ m, decodeMeta env.lib now packet = some (.ok m) ∧
      m.len.toNat + 7 = packet.length) (generation : Nat) (d : App) :
    ∃ t, packets.foldlM (fun d packet => d.onPacket env generation packet) d = some t ∧
      HandsOn env packets d t := by
  induction packets generalizing d with
  | nil => exact ⟨d, rfl, .refl d⟩
  | cons packet packets ih =>
    obtain ⟨u, first, handed⟩ := onPacket_announces (accepts packet List.mem_cons_self) generation d
    obtain ⟨t, later, rest⟩ := ih (fun packet member => accepts packet (List.mem_cons_of_mem _ member)) u
    refine ⟨t, ?_, handed.trans rest⟩
    rw [List.foldlM_cons, first]
    exact later

section

variable (decodes : DecodesEmitted env.lib)

include decodes

theorem onBytes_announces (generation : Nat) (data : List UInt8) (d : App) :
    ∃ t, d.onLinkEvent env (.onBytes generation data) = some t ∧
      HandsOn env (pushBytes env.lib.declaredPacketSize d.framer data).2 d t := by
  have pushed : HandsOn env [] d
      { d.log (.link (.onBytes generation data)) with
        framer := (pushBytes env.lib.declaredPacketSize d.framer data).1 } :=
    (HandsOn.log_link d).after (.none rfl rfl rfl)
  obtain ⟨t, handled, handed⟩ := onPackets_announces (decodes d.framer data) generation
    { d.log (.link (.onBytes generation data)) with
      framer := (pushBytes env.lib.declaredPacketSize d.framer data).1 }
  exact ⟨t, handled, pushed.after handed⟩

theorem onLinkEvent_hands {event : LinkEvent} (handled : d.onLinkEvent env event = some t) :
    ∃ packets, HandsOn env packets d t := by
  have logged : HandsOn env [] d (d.log (.link event)) := .log_link d
  cases event with
  | onBytes generation data =>
    obtain ⟨u, same, handed⟩ := onBytes_announces decodes generation data d
    cases same.symm.trans handled
    exact ⟨_, handed⟩
  | onState opened detail =>
    cases handled
    exact ⟨[], logged.after (.setLink _ _ _)⟩
  | onError err =>
    cases handled
    exact ⟨[], logged.after (.setLink _ _ _)⟩
  | _ =>
    cases handled
    exact ⟨[], logged.after (.none rfl rfl rfl)⟩

theorem onLink_hands {turn : SerialLink × List LinkEvent} (handled : d.onLink env turn = some t) :
    ∃ packets, HandsOn env packets d t := by
  have turned : HandsOn env [] d { d with link := turn.1 } := .none rfl rfl rfl
  refine foldlM_invariant (motive := fun _ u => ∃ packets, HandsOn env packets d u)
    (fun event _ u v before taken => ?_) turn.2 ⟨[], turned⟩ handled
  obtain ⟨packets, before⟩ := before
  obtain ⟨more, later⟩ := onLinkEvent_hands decodes taken
  exact ⟨packets ++ more, before.trans later⟩

theorem move_hands {asker : Option Nat} (move : Move env asker d t) :
    ∃ packets, HandsOn env packets d t := by
  cases move with
  | quiet same => exact ⟨[], .same same⟩
  | answered => exact ⟨[], .send _ _ _⟩
  | turned _ _ handled => exact onLink_hands decodes handled
  | @sent d' data m now _ _ _ posted =>
    obtain ⟨packets, handed⟩ := onLink_hands decodes posted
    have counted : HandsOn env [] d' (d'.modifyState fun state => state.onTx data.length) :=
      .none rfl rfl rfl
    have other : (makePacketFrame .PacketTx m (text "TX")).type ≠ .PacketRx := by
      change MsgType.PacketTx ≠ .PacketRx
      decide
    exact ⟨packets ++ [], handed.trans (counted.after (.broadcast _ other))⟩

theorem step_hands {start : App} {a : Action} (before : ∃ packets, HandsOn env packets start d)
    (taken : step env d a = .next t) : ∃ packets, HandsOn env packets start t := by
  have extend : ∀ {d t : App}, (∃ packets, HandsOn env packets start d) →
      (∃ packets, HandsOn env packets d t) → ∃ packets, HandsOn env packets start t := by
    rintro d t ⟨packets, before⟩ ⟨more, later⟩
    exact ⟨packets ++ more, before.trans later⟩
  have moves : ∀ asker d t, (∃ packets, HandsOn env packets start d) → Move env asker d t →
      ∃ packets, HandsOn env packets start t :=
    fun _ _ _ before move => extend before (move_hands decodes move)
  have welcomes : ∀ d, (∃ packets, HandsOn env packets start d) → d.greeting = none →
      ∃ packets, HandsOn env packets start d.welcome :=
    fun _ before _ => extend before ⟨[], .none rfl rfl rfl⟩
  have greets : ∀ d id, (∃ packets, HandsOn env packets start d) → d.greeting = some id →
      ∃ packets, HandsOn env packets start (d.greet id) := by
    intro d id before _
    have resting : HandsOn env [] d { d with rest := none } := .none rfl rfl rfl
    exact extend before ⟨[], resting.after ((HandsOn.send _ _ _).after (.send _ _ _))⟩
  exact step_preserves moves welcomes greets before taken

end

/-- Whatever the stream and the pieces that it is pushed in, `decode_meta` accepts what the framer
emits. The daemon hands each chunk on with one announcement for each packet in it, and in every run it
has announced each packet once and counted no decode error. -/
theorem framed_packets_decode (env : Env) (header : DependsOnHeader env.lib.declaredPacketSize)
    (declares : DeclaresLength env.lib.declaredPacketSize) (parses : ParsesHeader env.lib) :
    (∀ framer chunks, ∀ packet ∈ (pushAll env.lib.declaredPacketSize framer chunks).2, ∀ now,
      ∃ m, decodeMeta env.lib now packet = some (.ok m) ∧ m.len.toNat + 7 = packet.length) ∧
    (∀ generation data d, ∃ t, onLinkEvent env d (.onBytes generation data) = some t ∧
      HandsOn env (pushBytes env.lib.declaredPacketSize d.framer data).2 d t) ∧
    ∀ transport d, Reaches (step env) (fun _ _ => True) (initial transport) d →
      d.state.snap.decodeErrors = 0 ∧
      List.Forall₂ (Announces env) d.notified d.framedPackets := by
  have decodes := decodesEmitted header declares parses
  refine ⟨fun framer chunks => decodes.pushAll chunks framer, onBytes_announces decodes, ?_⟩
  intro transport d path
  have start : ∃ packets, HandsOn env packets (initial transport) (initial transport) :=
    ⟨[], .refl (initial transport)⟩
  obtain ⟨packets, handed⟩ := path.invariant
    (fun _ _ _ before _ taken => step_hands decodes before taken) start
  obtain ⟨frames, notified, announced⟩ := handed.announced
  refine ⟨handed.errors, ?_⟩
  rw [notified, handed.framed]
  exact announced

end App

-- Noise, then a packet of seven bytes whose secondary header is announced and missing, then another.
theorem framed_packets_decode_short :
    ∃ d, run (App.step benchEnv) (App.initial benchPort)
        [.run, .finish 1 (.ok [0xFF, 0x18, 0, 0xC0]), .run,
          .finish 1 (.ok ([0, 0, 0, 42] ++ benchPacket)), .run] = some d ∧
      d.framedPackets = [[0x18, 0, 0xC0, 0, 0, 0, 42], benchPacket] ∧
      d.state.snap.decodeErrors = 0 ∧
      List.Forall₂ (App.Announces benchEnv) d.notified d.framedPackets := by
  have ran : (run (App.step benchEnv) (App.initial benchPort)
      [.run, .finish 1 (.ok [0xFF, 0x18, 0, 0xC0]), .run,
        .finish 1 (.ok ([0, 0, 0, 42] ++ benchPacket)), .run]).map App.framedPackets =
        some [[0x18, 0, 0xC0, 0, 0, 0, 42], benchPacket] := by
    decide +kernel
  obtain ⟨d, reached, framed⟩ := Option.map_eq_some_iff.mp ran
  have decoded := App.framed_packets_decode benchEnv Reference.dependsOnHeader
    Reference.declaresLength Reference.parsesHeader
  exact ⟨d, reached, framed, decoded.2.2 benchPort d (reaches_of_along (by decide +kernel) reached)⟩

end ExnGs.Daemon
