import ExnGs.Daemon.Accounting
import ExnGs.Daemon.Moves
import ExnGs.Ui.UiApp

set_option autoImplicit false

-- What the daemon's store, its sessions and a user interface hold of the state of the link.
namespace ExnGs.Daemon

open Proto SpacePacket Framer Machine Ui

-- What the link says of itself.
def LinkEvent.opens : LinkEvent → Option Bool
  | .onState opened _ => some opened
  | .onError _ => some false
  | _ => none

namespace SerialLink

def reported (opened : Bool) (events : List LinkEvent) : Bool :=
  events.foldl (fun opened event => event.opens.getD opened) opened

theorem reported_quiet {events : List LinkEvent} (quiet : ∀ event ∈ events, event.opens = none)
    (opened : Bool) : reported opened events = opened := by
  induction events generalizing opened with
  | nil => rfl
  | cons event events ih =>
    obtain ⟨here, later⟩ := List.forall_mem_cons.mp quiet
    rw [reported, List.foldl_cons, here]
    exact ih later opened

/-- A turn reports how it leaves the link. -/
theorem Turn.reported {device : Nat → SerialOpen} {link : SerialLink}
    {turn : SerialLink × List LinkEvent} (turned : link.Turn device turn) :
    SerialLink.reported link.opened turn.2 = turn.1.opened := by
  cases turned with
  | start =>
    have started := link.start_cases device
    generalize link.start device = turn at started
    cases started with
    | busy => rfl
    | resolving => rfl
    | failed closed => simp [SerialLink.reported, LinkEvent.opens, closed]
    | opened => rfl
  | stop => rfl
  | handled op result =>
    have handled := link.handler_cases op result
    generalize link.handler op result = turn at handled
    cases handled with
    | @read data next reads =>
      refine reported_quiet ?_ _
      rcases reads with rfl | rfl <;> by_cases empty : data = [] <;> simp [empty, LinkEvent.opens]
    | written writes =>
      refine reported_quiet ?_ _
      rcases writes with rfl | ⟨_, _, rfl⟩ <;> simp [LinkEvent.opens]
    | _ => rfl
  | transmitted packet =>
    have written := link.runWrite_cases packet
    generalize link.runWrite packet = turn at written
    cases written <;> rfl

end SerialLink

namespace App

def Greets (frames : List Frame) : Prop :=
  ∃ hello status later, frames = hello :: status :: later ∧ hello.type = .Hello ∧
    status.type = .LinkState

-- Every session that was greeted was greeted in order, and all that it was sent can be read.
structure Served (d : App) : Prop where
  unborn : ∀ id, d.sessions.length ≤ id → d.sentTo id = []
  greeting : ∀ id, d.greeting = some id → id < d.sessions.length ∧ d.sentTo id = []
  greeted : ∀ id, id < d.sessions.length → d.greeting ≠ some id → Greets (d.sentTo id)
  texts : ∀ id, ∀ f ∈ d.sentTo id, CarriesText f

/-- The store agrees with `opened`, and every session that was greeted was told last what the store
holds. -/
structure Told (d : App) (opened : Bool) : Prop extends d.Served where
  link : d.state.snap.link = .Connected ↔ opened = true
  status : ∀ id, id < d.sessions.length → d.greeting ≠ some id →
    lastStatus (d.sentTo id) = some d.currentLinkFrame

variable {env : Env} {d t : App} {opened : Bool}

theorem Greets.append {frames : List Frame} (greets : Greets frames) (more : List Frame) :
    Greets (frames ++ more) := by
  obtain ⟨hello, status, later, rfl, isHello, isStatus⟩ := greets
  exact ⟨hello, status, later ++ more, rfl, isHello, isStatus⟩

theorem currentLinkFrame_type (d : App) : d.currentLinkFrame.type = .LinkState := rfl

theorem currentLinkFrame_carries (d : App) : CarriesText d.currentLinkFrame := .inr (.inr ⟨_, rfl⟩)

theorem Served.appended {more : Nat → List Frame} (served : d.Served) (idle : d.greeting = none)
    (sent : ∀ id, t.sentTo id = d.sentTo id ++ more id)
    (unborn : ∀ id, d.sessions.length ≤ id → more id = [])
    (carry : ∀ id, ∀ f ∈ more id, CarriesText f)
    (sessions : t.sessions.length = d.sessions.length) (greeting : t.greeting = d.greeting) :
    t.Served := by
  constructor
  · intro id outside
    rw [sessions] at outside
    rw [sent, served.unborn id outside, unborn id outside, List.append_nil]
  · intro id waits
    rw [greeting, idle] at waits
    cases waits
  · intro id known _
    rw [sessions] at known
    rw [sent]
    exact (served.greeted id known (by simp [idle])).append _
  · intro id f member
    rw [sent] at member
    rcases List.mem_append.mp member with old | new
    · exact served.texts id f old
    · exact carry id f new

theorem Told.same (told : d.Told opened)
    (state : t.state.snap.link = d.state.snap.link ∧ t.state.snap.linkDetail = d.state.snap.linkDetail)
    (sessions : t.sessions.length = d.sessions.length) (greeting : t.greeting = d.greeting)
    (sent : ∀ id, t.sentTo id = d.sentTo id) : t.Told opened := by
  have current : t.currentLinkFrame = d.currentLinkFrame := by
    simp [currentLinkFrame, state]
  refine ⟨⟨?_, ?_, ?_, ?_⟩, ?_, ?_⟩
  · intro id
    rw [sessions, sent]
    exact told.unborn id
  · intro id
    rw [greeting, sessions, sent]
    exact told.greeting id
  · intro id
    rw [sessions, greeting, sent]
    exact told.greeted id
  · intro id
    rw [sent]
    exact told.texts id
  · rw [state.1]
    exact told.link
  · intro id
    rw [sessions, greeting, sent, current]
    exact told.status id

theorem Told.send {id : Nat} {f : Frame} (told : d.Told opened) (idle : d.greeting = none)
    (known : id < d.sessions.length) (carries : CarriesText f)
    (current : f.type = .LinkState → f = d.currentLinkFrame) : (d.send id f).Told opened := by
  have sent := sentTo_send d id f
  refine ⟨told.appended idle sent ?_ ?_ rfl rfl, told.link, ?_⟩
  · intro other outside
    rw [if_neg (by omega)]
  · intro other g member
    split at member
    next => rwa [List.mem_singleton.mp member]
    next => cases member
  · intro other known waits
    rw [sent]
    split
    next =>
      rw [lastStatus_append, latestStatus]
      split
      next status => exact congrArg some (current status)
      next => exact told.status other known waits
    next =>
      rw [List.append_nil]
      exact told.status other known waits

theorem Told.broadcast {f : Frame} (told : d.Told opened) (idle : d.greeting = none)
    (carries : CarriesText f) (other : f.type ≠ .LinkState) : (d.broadcast f).Told opened := by
  have sent := sentTo_broadcast d f
  have greeting : (d.broadcast f).greeting = d.greeting := greeting_rest (broadcast_rest d f)
  refine ⟨told.appended idle sent ?_ ?_ (by simp) greeting, ?_, ?_⟩
  · intro id outside
    rw [if_neg (by omega)]
  · intro id g member
    split at member
    next => rwa [List.mem_singleton.mp member]
    next => cases member
  · rw [broadcast_state]
    exact told.link
  · intro id known waits
    rw [broadcast_sessions] at known
    rw [sent, if_pos known, lastStatus_append, latestStatus, if_neg other,
      currentLinkFrame_state (broadcast_state d f)]
    exact told.status id known (greeting ▸ waits)

-- Setting the state of the link and publishing it tells every session.
theorem Told.setLink {st : LinkState} {now : Bool} (told : d.Told opened) (idle : d.greeting = none)
    (detail : Text) (agrees : st = .Connected ↔ now = true) :
    (d.modifyState fun state => state.setLink st detail).publishLinkState.Told now := by
  have sent := sentTo_broadcast (d.modifyState fun state => state.setLink st detail)
    (d.modifyState fun state => state.setLink st detail).currentLinkFrame
  have greeting : (d.modifyState fun state => state.setLink st detail).publishLinkState.greeting =
      d.greeting := greeting_rest (broadcast_rest _ _)
  refine ⟨told.appended idle sent ?_ ?_ (by simp [publishLinkState, modifyState]) greeting, ?_, ?_⟩
  · intro id outside
    rw [if_neg (by simpa [modifyState] using outside)]
  · intro id g member
    split at member
    next =>
      rw [List.mem_singleton.mp member]
      exact currentLinkFrame_carries _
    next => cases member
  · rw [publishLinkState, broadcast_state]
    exact agrees
  · intro id known _
    rw [publishLinkState, broadcast_sessions] at known
    rw [publishLinkState, sent, if_pos known, lastStatus_append, latestStatus,
      if_pos (currentLinkFrame_type _), currentLinkFrame_state (broadcast_state _ _)]

theorem Told.onPacket {generation : Nat} {packet : List UInt8} (told : d.Told opened)
    (idle : d.greeting = none) (handled : d.onPacket env generation packet = some t) :
    t.Told opened := by
  simp only [App.onPacket, Option.bind_eq_bind, Option.bind_eq_some_iff] at handled
  obtain ⟨decoded, _, handled⟩ := handled
  generalize rxRecord decoded (env.now (d.clock + 1)) packet = record at handled
  have kept : (d.keep generation record).Told opened :=
    told.same ⟨rfl, rfl⟩ rfl rfl fun id => by simp [sentTo, keep, Event.sentTo]
  cases decoded with
  | error message =>
    cases handled
    have counted : ((d.keep generation record).modifyState .onDecodeError).Told opened :=
      kept.same ⟨rfl, rfl⟩ rfl rfl fun _ => rfl
    exact counted.broadcast idle (.inr (.inr ⟨_, rfl⟩))
      (show MsgType.Error ≠ .LinkState by decide)
  | ok m =>
    cases handled
    exact kept.broadcast idle (.inl rfl) (show MsgType.PacketRx ≠ .LinkState by decide)

theorem Told.onPackets {generation : Nat} (packets : List (List UInt8)) {d : App}
    (told : d.Told opened) (idle : d.greeting = none)
    (handled : packets.foldlM (fun d packet => d.onPacket env generation packet) d = some t) :
    t.Told opened := by
  have kept := foldlM_invariant (motive := fun _ u => u.Told opened ∧ u.greeting = none)
    (fun _ _ _ _ before taken => ⟨before.1.onPacket before.2 taken,
      (greeting_rest (onPacket_keeps taken).2.2).trans before.2⟩) packets ⟨told, idle⟩ handled
  exact kept.1

theorem Told.onLinkEvent {event : LinkEvent} (told : d.Told opened) (idle : d.greeting = none)
    (handled : d.onLinkEvent env event = some t) : t.Told (event.opens.getD opened) := by
  have logged : (d.log (.link event)).Told opened :=
    told.same ⟨rfl, rfl⟩ rfl rfl (sentTo_log d event)
  cases event with
  | onState now detail =>
    cases handled
    exact logged.setLink idle detail (by cases now <;> simp [LinkEvent.opens])
  | onError err =>
    cases handled
    exact logged.setLink idle err (by simp [LinkEvent.opens])
  | onBytes generation data =>
    have pushed : Told { d.log (.link (.onBytes generation data)) with
        framer := (pushBytes env.lib.declaredPacketSize d.framer data).1 } opened :=
      logged.same ⟨rfl, rfl⟩ rfl rfl fun _ => rfl
    exact pushed.onPackets _ idle handled
  | _ =>
    cases handled
    exact logged.same ⟨rfl, rfl⟩ rfl rfl fun _ => rfl

theorem Told.onLink {turn : SerialLink × List LinkEvent} (told : d.Told opened)
    (idle : d.greeting = none) (handled : d.onLink env turn = some t) :
    t.Told (SerialLink.reported opened turn.2) := by
  -- What was told so far, and what the events that are left report from there.
  let agrees : List LinkEvent → App → Prop := fun rest u => ∃ known : Bool,
    u.Told known ∧ u.greeting = none ∧
      SerialLink.reported known rest = SerialLink.reported opened turn.2
  have each : ∀ event rest u v, agrees (event :: rest) u → u.onLinkEvent env event = some v →
      agrees rest v := by
    rintro event rest u v ⟨before, told, idle, reports⟩ taken
    exact ⟨_, told.onLinkEvent idle taken, (greeting_rest (onLinkEvent_keeps taken).2.2).trans idle,
      reports⟩
  have turned : Told { d with link := turn.1 } opened := told.same ⟨rfl, rfl⟩ rfl rfl fun _ => rfl
  obtain ⟨last, told, _, reports⟩ :=
    foldlM_invariant each turn.2 ⟨opened, turned, idle, rfl⟩ handled
  rw [← reports]
  exact told

theorem Told.welcome (told : d.Told opened) (idle : d.greeting = none) :
    d.welcome.Told opened := by
  have older : ∀ {id}, id < (d.sessions ++ [({} : IpcSession)]).length →
      some d.sessions.length ≠ some id → id < d.sessions.length := by
    intro id known other
    rw [List.length_append, List.length_singleton] at known
    have : d.sessions.length ≠ id := fun same => other (congrArg some same)
    omega
  refine ⟨⟨?_, ?_, ?_, told.texts⟩, told.link, ?_⟩
  · intro id outside
    rw [App.welcome, List.length_append] at outside
    exact told.unborn id (by omega)
  · intro id waits
    cases waits
    exact ⟨by simp [App.welcome], told.unborn _ (Nat.le_refl _)⟩
  · intro id known waits
    exact told.greeted id (older known waits) (by simp [idle])
  · intro id known waits
    exact told.status id (older known waits) (by simp [idle])

theorem Told.greet {id : Nat} (told : d.Told opened) (greeting : d.greeting = some id) :
    (d.greet id).Told opened := by
  obtain ⟨known, fresh⟩ := told.greeting id greeting
  have sent : ∀ other, (d.greet id).sentTo other = if id = other then
      [{ type := .Hello, payload := packString (text "exn_gsd") }, d.currentLinkFrame]
    else d.sentTo other := by
    intro other
    rw [sentTo_greet]
    by_cases same : id = other
    · subst same
      simp [fresh]
    · simp [same]
  have others : ∀ other, id ≠ other → d.greeting ≠ some other :=
    fun other different same => different (Option.some.inj (greeting.symm.trans same))
  refine ⟨⟨?_, ?_, ?_, ?_⟩, told.link, ?_⟩
  · intro other outside
    rw [sent, if_neg (by rintro rfl; exact absurd known (Nat.not_lt.mpr outside))]
    exact told.unborn other outside
  · intro other waits
    cases waits
  · intro other inside _
    rw [sent]
    split
    next => exact ⟨_, _, [], rfl, rfl, rfl⟩
    next different => exact told.greeted other inside (others other different)
  · intro other f member
    rw [sent] at member
    split at member
    next =>
      rcases List.mem_pair.mp member with rfl | rfl
      · exact .inr (.inr ⟨_, rfl⟩)
      · exact currentLinkFrame_carries d
    next => exact told.texts other f member
  · intro other inside _
    rw [sent]
    split
    next => rfl
    next different => exact told.status other inside (others other different)

theorem Told.move {asker : Option Nat} (told : d.Told d.link.opened) (move : Move env asker d t) :
    t.Told t.link.opened := by
  cases move with
  | quiet same =>
    rw [same.link]
    refine told.same (by simp [same.state]) same.sessions same.greeting fun id => ?_
    rw [sentTo, sentTo, same.history]
  | answered _ known idle answers =>
    refine told.send idle known ?_ ?_
    · cases answers <;> exact .inr (.inr ⟨_, rfl⟩)
    · intro status
      cases answers with
      | status => rfl
      | _ => cases status
  | turned turned idle handled =>
    rw [(onLink_keeps handled).1, ← turned.reported]
    exact told.onLink idle handled
  | @sent d' data m now _ opened idle posted =>
    have wrote := told.onLink idle posted
    have unreported : SerialLink.reported d.link.opened (d.link.writeBytes data) = d.link.opened := by
      refine SerialLink.reported_quiet ?_ _
      unfold SerialLink.writeBytes
      split <;> simp [LinkEvent.opens]
    rw [unreported] at wrote
    have waits := (greeting_rest (onLink_keeps posted).2.2).trans idle
    have counted : (d'.modifyState fun state => state.onTx data.length).Told d.link.opened :=
      wrote.same ⟨rfl, rfl⟩ rfl rfl fun _ => rfl
    rw [broadcast_link]
    change Told _ d'.link.opened
    rw [(onLink_keeps posted).1]
    exact counted.broadcast waits (.inr (.inl rfl)) (show MsgType.PacketTx ≠ .LinkState by decide)

theorem told_step {a : Action} (told : d.Told d.link.opened) (taken : step env d a = .next t) :
    t.Told t.link.opened := by
  have moves : ∀ asker (d t : App), d.Told d.link.opened → Move env asker d t →
      t.Told t.link.opened :=
    fun _ _ _ told move => told.move move
  exact step_preserves moves (fun _ told idle => told.welcome idle)
    (fun _ _ told greeting => told.greet greeting) told taken

theorem told_initial (transport : Transport) :
    (initial transport).Told (initial transport).link.opened := by
  refine ⟨⟨fun _ _ => rfl, fun _ waits => ?_, fun _ known => ?_, fun _ _ member => ?_⟩, ?_,
    fun _ known => ?_⟩
  · cases waits
  · cases known
  · cases member
  · constructor
    · intro connected
      cases connected
    · intro opened
      cases opened
  · cases known

theorem currentLinkFrame_shows (d : App) (short : d.state.snap.linkDetail.length < 2 ^ 32 - 32) :
    UiApp.shows d.currentLinkFrame = decide (d.state.snap.link = .Connected) := by
  have begins : ∀ st rest, UiApp.startsWith (linkStateToString st ++ rest) "CONNECTED" =
      decide (st = .Connected) := by
    intro st rest
    cases st <;> rfl
  have size : ∀ st, (linkStateToString st).length ≤ 12 := by
    intro st
    cases st <;> decide
  have fits : (linkStateToString d.state.snap.link ++
      if d.state.snap.linkDetail = [] then [] else text " " ++ d.state.snap.linkDetail).length <
        2 ^ 32 := by
    have := size d.state.snap.link
    have : (text " ").length = 1 := rfl
    split <;> simp only [List.length_append, List.length_nil] <;> omega
  rw [UiApp.shows, currentLinkFrame, stringOf_packString _ fits, begins]

/-- Between two handlers the store holds whether the link is open. Every session whose socket is open
was sent its greeting and the state of the link first, and the state that the store holds last, so a
user interface that has handled all it was sent shows whether the link is open. -/
theorem link_seen (env : Env) (transport : Transport) {d : App}
    (path : Reaches (step env) (fun _ _ => True) (initial transport) d) (between : d.rest = none) :
    (d.state.snap.link = .Connected ↔ d.link.opened = true) ∧
    ∀ id session, d.sessions[id]? = some session → session.sockOpen = true →
      Greets (d.sentTo id) ∧ lastStatus (d.sentTo id) = some d.currentLinkFrame ∧
      (d.state.snap.linkDetail.length < 2 ^ 32 - 32 →
        (∀ f ∈ d.sentTo id, f.payload.length < 2 ^ 32) →
        ∀ ui : UiApp, ∃ after, ui.onFrames (d.sentTo id) = some after ∧
          after.deviceConnected = d.link.opened) := by
  have steps : ∀ (d : App) a t, d.Told d.link.opened → True → step env d a = .next t →
      t.Told t.link.opened :=
    fun _ _ _ told _ taken => told_step told taken
  have told : d.Told d.link.opened := path.invariant steps (told_initial transport)
  have idle : ∀ id, d.greeting ≠ some id := by simp [greeting, between]
  refine ⟨told.link, fun id session here _ => ?_⟩
  have known := (List.getElem?_eq_some_iff.mp here).1
  have status := told.status id known (idle id)
  refine ⟨told.greeted id known (idle id), status, fun short fit ui => ?_⟩
  obtain ⟨after, handled, shown⟩ := UiApp.onFrames_shows _ (told.texts id) fit ui
  refine ⟨after, handled, ?_⟩
  rw [shown _ status, currentLinkFrame_shows d short, Bool.eq_iff_iff, decide_eq_true_iff]
  exact told.link

end App

-- A client is told that the link is open, closed and open again.
theorem link_seen_bench :
    ∃ d, run (App.step benchEnv) (App.initial benchPort) (clientSends [] [command "RECONNECT"]) =
        some d ∧
      App.Greets (d.sentTo 0) ∧ lastStatus (d.sentTo 0) = some d.currentLinkFrame ∧
      ∃ after, UiApp.onFrames {} (d.sentTo 0) = some after ∧
        after.deviceConnected = d.link.opened := by
  have ran : (run (App.step benchEnv) (App.initial benchPort)
      (clientSends [] [command "RECONNECT"])).map
        (fun d => (d.rest, d.sessions.map IpcSession.sockOpen, d.state.snap.linkDetail.length,
          (d.sentTo 0).map fun f => f.payload.length)) =
      some (none, [true], 12, [11, 26, 29, 26]) := by
    decide +kernel
  obtain ⟨d, reached, observed⟩ := Option.map_eq_some_iff.mp ran
  simp only [Prod.mk.injEq] at observed
  obtain ⟨between, sessions, detail, lengths⟩ := observed
  have path : Reaches (App.step benchEnv) (fun _ _ => True) (App.initial benchPort) d :=
    reaches_of_along (by decide +kernel) reached
  obtain ⟨session, here, opened⟩ : ∃ session, d.sessions[0]? = some session ∧
      session.sockOpen = true := by
    have first := congrArg (fun flags => flags[0]?) sessions
    simp only [List.getElem?_map] at first
    exact Option.map_eq_some_iff.mp first
  have fit : ∀ f ∈ d.sentTo 0, f.payload.length < 2 ^ 32 := by
    intro f member
    have one : f.payload.length ∈ [11, 26, 29, 26] :=
      lengths ▸ List.mem_map_of_mem (f := fun f => f.payload.length) member
    simp only [List.mem_cons, List.not_mem_nil, or_false] at one
    omega
  obtain ⟨greets, status, shows⟩ := (App.link_seen benchEnv benchPort path between).2 0 session here
    opened
  exact ⟨d, reached, greets, status, shows (by omega) fit {}⟩

end ExnGs.Daemon
