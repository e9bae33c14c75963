import ExnGs.Daemon.Announcements
import ExnGs.Daemon.DeviceStream

set_option autoImplicit false

-- Every session is passed each notification of a packet that is broadcast while it exists.
namespace ExnGs.Daemon

open Proto SpacePacket Framer Machine

-- The frames that tell of a packet, received or sent.
def notifies (f : Frame) : Bool := f.type = .PacketRx || f.type = .PacketTx

def Event.told : Event → List Frame
  | .broadcast f => if notifies f then [f] else []
  | _ => []

namespace App

def told (d : App) : List Frame := d.history.flatMap Event.told

def heard (d : App) (id : Nat) : List Frame := (d.sentTo id).filter notifies

/-- From one state to another the sessions that exist heard of the same packets, and others of none. -/
structure Spreads (d t : App) : Prop where
  sessions : t.sessions.length = d.sessions.length
  greeting : t.greeting = d.greeting
  strangers : ∀ id, d.sessions.length ≤ id → t.sentTo id = d.sentTo id
  tells : ∃ frames, t.told = d.told ++ frames ∧
    ∀ id, id < d.sessions.length → t.heard id = d.heard id ++ frames

/-- What a session heard are the last of the notifications, all those since it was accepted. -/
structure FannedOut (d : App) : Prop where
  known : ∀ id, d.greeting = some id → id < d.sessions.length
  unborn : ∀ id, d.sessions.length ≤ id → d.sentTo id = []
  last : ∀ id, d.heard id <:+ d.told

variable {env : Env} {d t : App}

theorem Spreads.none (sessions : t.sessions.length = d.sessions.length) (greeting : t.greeting = d.greeting)
    (sent : ∀ id, t.sentTo id = d.sentTo id) (told : t.told = d.told) : Spreads d t := by
  refine ⟨sessions, greeting, fun id _ => sent id, [], ?_, fun id _ => ?_⟩
  · rw [told, List.append_nil]
  · rw [heard, heard, sent, List.append_nil]

theorem Spreads.refl (d : App) : Spreads d d := .none rfl rfl (fun _ => rfl) rfl

theorem Spreads.trans {u : App} (first : Spreads d t) (later : Spreads t u) : Spreads d u := by
  obtain ⟨frames, told, heard⟩ := first.tells
  obtain ⟨more, told', heard'⟩ := later.tells
  refine ⟨later.sessions.trans first.sessions, later.greeting.trans first.greeting, ?_, frames ++ more, ?_, ?_⟩
  · intro id outside
    rw [later.strangers id (first.sessions.symm ▸ outside), first.strangers id outside]
  · rw [told', told, List.append_assoc]
  · intro id known
    rw [heard' id (first.sessions.symm ▸ known), heard id known, List.append_assoc]

theorem Spreads.same (same : d.Same t) : Spreads d t := by
  refine .none same.sessions same.greeting (fun id => ?_) ?_
  · rw [sentTo, sentTo, same.history]
  · rw [told, told, same.history]

theorem Spreads.send {id : Nat} {f : Frame} (known : id < d.sessions.length) (other : notifies f = false) :
    Spreads d (d.send id f) := by
  refine ⟨rfl, rfl, fun own outside => ?_, [], ?_, fun own _ => ?_⟩
  · rw [sentTo_send, if_neg (by omega), List.append_nil]
  · rw [told, observed_send (fun _ _ => rfl), List.append_nil]
    rfl
  · rw [heard, heard, sentTo_send, List.filter_append]
    by_cases mine : id = own <;> simp [mine, other]

theorem told_broadcast (d : App) (f : Frame) :
    (d.broadcast f).told = d.told ++ if notifies f then [f] else [] := by
  rw [told, observed_broadcast (fun _ _ => rfl)]
  rfl

theorem Spreads.broadcast (d : App) (f : Frame) : Spreads d (d.broadcast f) := by
  refine ⟨by rw [broadcast_sessions], greeting_rest (broadcast_rest d f), fun id outside => ?_, _,
    told_broadcast d f, fun id known => ?_⟩
  · rw [sentTo_broadcast, if_neg (by omega), List.append_nil]
  · rw [heard, heard, sentTo_broadcast, if_pos known, List.filter_append]
    cases notifying : notifies f <;> simp [notifying]

theorem Spreads.setLink (d : App) (st : LinkState) (detail : Text) :
    Spreads d (d.modifyState fun state => state.setLink st detail).publishLinkState := by
  have set : Spreads d (d.modifyState fun state => state.setLink st detail) :=
    .none rfl rfl (fun _ => rfl) rfl
  exact set.trans (.broadcast _ _)

theorem Spreads.log_link (d : App) {event : LinkEvent} : Spreads d (d.log (.link event)) := by
  refine .none rfl rfl (sentTo_log d event) ?_
  simp [told, log, Event.told]

theorem onPacket_spreads {generation : Nat} {packet : List UInt8}
    (handled : d.onPacket env generation packet = some t) : Spreads d t := by
  simp only [onPacket, Option.bind_eq_bind, Option.bind_eq_some_iff] at handled
  obtain ⟨decoded, _, handled⟩ := handled
  generalize rxRecord decoded (env.now (d.clock + 1)) packet = record at handled
  have kept : Spreads d (d.keep generation record) := by
    refine .none rfl rfl (fun id => ?_) ?_
    · simp [keep, sentTo, Event.sentTo]
    · simp [keep, told, Event.told]
  cases decoded with
  | error message =>
    cases handled
    have counted : Spreads d ((d.keep generation record).modifyState .onDecodeError) :=
      kept.trans (.none rfl rfl (fun _ => rfl) rfl)
    exact counted.trans (.broadcast _ _)
  | ok m =>
    cases handled
    exact kept.trans (.broadcast _ _)

theorem onLinkEvent_spreads {event : LinkEvent} (handled : d.onLinkEvent env event = some t) :
    Spreads d t := by
  have logged : Spreads d (d.log (.link event)) := .log_link d
  cases event with
  | onBytes generation data =>
    have pushed : Spreads d { d.log (.link (.onBytes generation data)) with
        framer := (pushBytes env.lib.declaredPacketSize d.framer data).1 } :=
      logged.trans (.none rfl rfl (fun _ => rfl) rfl)
    exact pushed.trans
      (foldlM_related Spreads.refl Spreads.trans (fun _ _ _ handled => onPacket_spreads handled) _ handled)
  | onState opened detail =>
    cases handled
    exact logged.trans (.setLink _ _ _)
  | onError err =>
    cases handled
    exact logged.trans (.setLink _ _ _)
  | _ =>
    cases handled
    exact logged.trans (.none rfl rfl (fun _ => rfl) rfl)

theorem onLink_spreads {turn : SerialLink × List LinkEvent} (handled : d.onLink env turn = some t) :
    Spreads d t := by
  have turned : Spreads d { d with link := turn.1 } := .none rfl rfl (fun _ => rfl) rfl
  exact turned.trans
    (foldlM_related Spreads.refl Spreads.trans (fun _ _ _ handled => onLinkEvent_spreads handled) _ handled)

theorem move_spreads {asker : Option Nat} (move : Move env asker d t) : Spreads d t := by
  cases move with
  | quiet same => exact .same same
  | answered _ known _ answers =>
    refine .send known ?_
    cases answers <;> rfl
  | turned _ _ handled => exact onLink_spreads handled
  | @sent d' data m now _ _ _ posted =>
    have counted : Spreads d' (d'.modifyState fun state => state.onTx data.length) :=
      .none rfl rfl (fun _ => rfl) rfl
    exact (onLink_spreads posted).trans (counted.trans (.broadcast _ _))

theorem FannedOut.spreads (fanned : d.FannedOut) (spreads : Spreads d t) : t.FannedOut := by
  obtain ⟨frames, told, heard⟩ := spreads.tells
  refine ⟨fun id waits => ?_, fun id outside => ?_, fun id => ?_⟩
  · rw [spreads.greeting] at waits
    rw [spreads.sessions]
    exact fanned.known id waits
  · rw [spreads.sessions] at outside
    rw [spreads.strangers id outside, fanned.unborn id outside]
  · by_cases known : id < d.sessions.length
    · obtain ⟨earlier, split⟩ := fanned.last id
      rw [heard id known, told, ← split, List.append_assoc]
      exact List.suffix_append _ _
    · have outside := Nat.le_of_not_lt known
      rw [App.heard, spreads.strangers id outside, fanned.unborn id outside]
      exact List.nil_suffix

theorem FannedOut.welcome (fanned : d.FannedOut) : d.welcome.FannedOut := by
  have sessions : d.welcome.sessions.length = d.sessions.length + 1 := List.length_append
  refine ⟨fun id waits => ?_, fun id outside => ?_, fanned.last⟩
  · cases waits
    omega
  · exact fanned.unborn id (by omega)

theorem FannedOut.greet {id : Nat} (fanned : d.FannedOut) (greeting : d.greeting = some id) :
    (d.greet id).FannedOut := by
  have known := fanned.known id greeting
  refine ⟨(fun _ waits => nomatch waits), fun own outside => ?_, fun own => ?_⟩
  · change d.sessions.length ≤ own at outside
    rw [sentTo_greet, if_neg (by omega), List.append_nil]
    exact fanned.unborn own outside
  · have told : (d.greet id).told = d.told := by
      simp [App.told, App.greet, App.send, Event.told]
    have nothing : [{ type := .Hello, payload := packString (text "exn_gsd") }, d.currentLinkFrame].filter
        notifies = [] := rfl
    have silent : (d.greet id).heard own = d.heard own := by
      rw [heard, heard, sentTo_greet, List.filter_append]
      split
      next => rw [nothing, List.append_nil]
      next => rw [List.filter_nil, List.append_nil]
    rw [told, silent]
    exact fanned.last own

theorem fannedOut_step {a : Action} (fanned : d.FannedOut) (taken : step env d a = .next t) : t.FannedOut :=
  step_preserves (fun _ _ _ before move => before.spreads (move_spreads move))
    (fun _ before _ => before.welcome) (fun _ _ before greeting => before.greet greeting) fanned taken

theorem fannedOut_initial (transport : Transport) : (initial transport).FannedOut :=
  ⟨(fun _ waits => nomatch waits), fun _ _ => rfl, fun _ => List.suffix_rfl⟩

-- The notifications of received packets are those that announce them.
theorem told_notified (d : App) : d.told.filter (fun f => f.type = .PacketRx) = d.notified := by
  rw [told, notified]
  induction d.history with
  | nil => rfl
  | cons event history ih =>
    rw [List.flatMap_cons, List.flatMap_cons, List.filter_append, ih]
    congr 1
    cases event with
    | broadcast f =>
      by_cases received : f.type = .PacketRx
      · simp [Event.told, Event.notified, notifies, received]
      · rw [Event.told, Event.notified, if_neg received]
        split <;> simp [received]
    | _ => rfl

-- The frame carries what `decode_meta` made of the packet when it was accepted.
def AnnouncesSent (env : Env) (f : Frame) (packet : TxPacket) : Prop :=
  ∃ now m, decodeMeta env.lib now packet.bytes = some (.ok m) ∧ f = makePacketFrame .PacketTx m (text "TX")

-- The notifications of packets passed to `write_bytes`.
def sentNotes (d : App) : List Frame := d.history.flatMap Event.announced

def Noted (env : Env) (d : App) : Prop := List.Forall₂ (AnnouncesSent env) d.sentNotes d.posted

theorem told_sentNotes (d : App) : d.told.filter (fun f => f.type = .PacketTx) = d.sentNotes := by
  rw [told, sentNotes]
  induction d.history with
  | nil => rfl
  | cons event history ih =>
    rw [List.flatMap_cons, List.flatMap_cons, List.filter_append, ih]
    congr 1
    cases event with
    | broadcast f =>
      by_cases sent : f.type = .PacketTx
      · simp [Event.told, Event.announced, notifies, sent]
      · rw [Event.told, Event.announced, if_neg sent]
        split <;> simp [sent]
    | _ => rfl

theorem sentNotes_broadcast (d : App) (f : Frame) :
    (d.broadcast f).sentNotes = d.sentNotes ++ if f.type = .PacketTx then [f] else [] := by
  rw [sentNotes, observed_broadcast (fun _ _ => rfl)]
  rfl

theorem sentNotes_onLink {turn : SerialLink × List LinkEvent} (handled : d.onLink env turn = some t) :
    t.sentNotes = d.sentNotes := by
  have silent : (turn.2.flatMap fun event => Event.announced (.link event)) = [] := by
    rw [List.flatMap_eq_nil_iff]
    exact fun _ _ => rfl
  rw [sentNotes, ← observed_device t fun _ => announced_other, device_onLink handled,
    Device.turn_observed fun _ _ => rfl, silent, List.append_nil, observed_device d fun _ => announced_other]
  rfl

theorem Noted.move {asker : Option Nat} (noted : d.Noted env) (move : Move env asker d t) : t.Noted env := by
  cases move with
  | quiet same =>
    have history := same.history
    rw [Noted, sentNotes, posted, linkEvents, history]
    exact noted
  | answered =>
    rw [Noted, posted_send, sentNotes, observed_send (fun _ _ => rfl)]
    exact noted
  | turned turned _ handled =>
    have posts := posted_onLink handled
    rw [SerialLink.turn_unposted turned, List.append_nil] at posts
    rw [Noted, sentNotes_onLink handled, posts]
    exact noted
  | @sent d' data m now decoded _ _ posted =>
    have long := decodeMeta_long decoded
    have filled : data ≠ [] := by
      rintro rfl
      cases long
    have posts : d'.posted = d.posted ++ [{ bytes := data, accepted := d.link.generation }] := by
      rw [posted_onLink posted, SerialLink.writeBytes, if_neg filled]
      rfl
    have notes : ((d'.modifyState fun state => state.onTx data.length).broadcast
        (makePacketFrame .PacketTx m (text "TX"))).sentNotes =
          d.sentNotes ++ [makePacketFrame .PacketTx m (text "TX")] := by
      rw [sentNotes_broadcast, ← sentNotes_onLink posted]
      rfl
    rw [Noted, notes, posted_broadcast]
    change List.Forall₂ _ _ d'.posted
    rw [posts]
    exact List.rel_append noted (.cons ⟨now, m, decoded, rfl⟩ .nil)

theorem noted_step {a : Action} (noted : d.Noted env) (taken : step env d a = .next t) : t.Noted env := by
  refine step_preserves (fun _ _ _ before move => before.move move) (fun _ before _ => before) ?_ noted taken
  intro d id before _
  have silent : (d.greet id).sentNotes = d.sentNotes := by
    simp [sentNotes, App.greet, App.send, Event.announced]
  have posts : (d.greet id).posted = d.posted := by
    rw [greet, posted_send, posted_send]
    rfl
  rw [Noted, silent, posts]
  exact before

end App

end ExnGs.Daemon
