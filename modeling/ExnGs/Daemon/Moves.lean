import Mathlib.Logic.Relation
import ExnGs.Daemon.Requests

set_option autoImplicit false

-- What the handlers of the daemon do to its link, its store and its history, whatever they do to the
-- queues of the event loop.
namespace ExnGs.Daemon

open Proto SpacePacket Framer Relation

def Event.sentTo (id : Nat) : Event → List Frame
  | .sent session f => if session = id then [f] else []
  | _ => []

inductive SerialLink.Turn (device : Nat → SerialOpen) (link : SerialLink) :
    SerialLink × List LinkEvent → Prop
  | start : Turn device link (link.start device)
  | stop : Turn device link link.stop
  | handled (op : LinkOp) (result : Completion) : Turn device link (link.handler op result)
  | transmitted (packet : TxPacket) : Turn device link (link.runWrite packet)

namespace App

-- The frames passed to `send` of a session.
def sentTo (d : App) (id : Nat) : List Frame := d.history.flatMap (Event.sentTo id)

-- A session that is accepted but not greeted yet.
def greeting (d : App) : Option Nat :=
  match d.rest with
  | some (.greet id) => some id
  | _ => none

-- Two states that differ in the queues of the loop and the insides of the sessions only.
structure Same (d t : App) : Prop where
  link : t.link = d.link
  framer : t.framer = d.framer
  state : t.state = d.state
  history : t.history = d.history
  sessions : t.sessions.length = d.sessions.length
  greeting : t.greeting = d.greeting

/-- What a handler does, one of these after the other. `asker` is the session whose request is being
handled. -/
inductive Move (env : Env) (asker : Option Nat) (d : App) : App → Prop
  | quiet {t : App} (same : d.Same t) : Move env asker d t
  | answered {id : Nat} {f : Frame} (asked : asker = some id) (known : id < d.sessions.length)
      (idle : d.greeting = none) (answers : d.Answer f) : Move env asker d (d.send id f)
  | turned {turn : SerialLink × List LinkEvent} {t : App} (turned : d.link.Turn env.device turn)
      (idle : d.greeting = none) (handled : d.onLink env turn = some t) : Move env asker d t
  | sent {t : App} {data : List UInt8} {m : PacketMeta} {now : UInt64}
      (decoded : decodeMeta env.lib now data = some (.ok m)) (opened : d.link.opened = true)
      (idle : d.greeting = none)
      (posted : d.onLink env (d.link, d.link.writeBytes data) = some t) :
      Move env asker d ((t.modifyState fun state => state.onTx data.length).broadcast
        (makePacketFrame .PacketTx m (text "TX")))

-- A session is added, and its greeting is what runs next.
def welcome (d : App) : App :=
  { d with sessions := d.sessions ++ [{}], rest := some (.greet d.sessions.length) }

def greet (d : App) (id : Nat) : App :=
  ({ d with rest := none }.send id { type := .Hello, payload := packString (text "exn_gsd") }).send id
    d.currentLinkFrame

-- The request that the next turn of the loop of a session hands to `on_frame`.
def request (d : App) : Action → Option (Nat × Frame)
  | .finish _ _ => none
  | .run =>
    match d.rest with
    | some (.decode id) => do
      let session ← d.sessions[id]?
      let (found, _, f) ← tryDecode session.rxbuf .unset
      if found && IpcSession.isRequest f then some (id, f) else none
    | _ => none

-- What one step of the daemon is for the sessions: it handles a request, or nobody asked.
inductive Stepped (env : Env) (d : App) (a : Action) (t : App) : Prop
  | asked {id : Nat} {f : Frame} {d' : App} (request : d.request a = some (id, f))
      (known : id < d.sessions.length) (idle : d.greeting = none) (same : d.Same d')
      (clock : d'.clock = d.clock) (handled : d'.onFrame env f id = some t)
  | unasked {d' : App} (silent : d.request a = none) (same : d.Same d') (move : Move env none d' t)
  | welcomed {d' : App} (silent : d.request a = none) (same : d.Same d') (idle : d'.greeting = none)
      (after : t = d'.welcome)
  | greeted {id : Nat} (silent : d.request a = none) (greeting : d.greeting = some id)
      (same : (d.greet id).Same t)

variable {env : Env} {asker : Option Nat} {d t : App}

theorem Same.refl (d : App) : d.Same d := ⟨rfl, rfl, rfl, rfl, rfl, rfl⟩

theorem Same.trans {d' : App} (first : d.Same d') (later : d'.Same t) : d.Same t where
  link := later.link.trans first.link
  framer := later.framer.trans first.framer
  state := later.state.trans first.state
  history := later.history.trans first.history
  sessions := later.sessions.trans first.sessions
  greeting := later.greeting.trans first.greeting

theorem currentLinkFrame_state {d t : App} (state : t.state = d.state) :
    t.currentLinkFrame = d.currentLinkFrame := by
  rw [currentLinkFrame, currentLinkFrame, state]

theorem broadcast_keeps (f : Frame) (ids : List Nat) (d : App) :
    let t := ids.foldl (fun d session => d.send session f) d
    t.link = d.link ∧ t.framer = d.framer ∧ t.state = d.state ∧ t.sessions = d.sessions ∧
      t.rest = d.rest ∧ t.history = d.history ++ ids.map fun id => .sent id f := by
  induction ids generalizing d with
  | nil => simp
  | cons id ids ih =>
    obtain ⟨link, framer, state, sessions, rest, history⟩ := ih (d.send id f)
    refine ⟨link, framer, state, sessions, rest, ?_⟩
    rw [List.foldl_cons, history]
    simp [send]

theorem broadcast_history (d : App) (f : Frame) :
    (d.broadcast f).history =
      d.history ++ .broadcast f :: (List.range d.sessions.length).map fun id => .sent id f := by
  rw [broadcast, (broadcast_keeps f _ _).2.2.2.2.2]
  simp [log]

-- What an observer does not care for that single sessions are sent.
theorem observed_send {β : Type} {observe : Event → List β}
    (silent : ∀ id f, observe (.sent id f) = []) (d : App) (id : Nat) (f : Frame) :
    (d.send id f).history.flatMap observe = d.history.flatMap observe := by
  simp [send, silent]

theorem observed_broadcast {β : Type} {observe : Event → List β}
    (silent : ∀ id f, observe (.sent id f) = []) (d : App) (f : Frame) :
    (d.broadcast f).history.flatMap observe =
      d.history.flatMap observe ++ observe (.broadcast f) := by
  simp [broadcast_history, List.flatMap_map, silent]

@[simp] theorem broadcast_link (d : App) (f : Frame) : (d.broadcast f).link = d.link :=
  (broadcast_keeps f _ _).1

@[simp] theorem broadcast_framer (d : App) (f : Frame) : (d.broadcast f).framer = d.framer :=
  (broadcast_keeps f _ _).2.1

@[simp] theorem broadcast_state (d : App) (f : Frame) : (d.broadcast f).state = d.state :=
  (broadcast_keeps f _ _).2.2.1

@[simp] theorem broadcast_sessions (d : App) (f : Frame) : (d.broadcast f).sessions = d.sessions :=
  (broadcast_keeps f _ _).2.2.2.1

@[simp] theorem broadcast_rest (d : App) (f : Frame) : (d.broadcast f).rest = d.rest :=
  (broadcast_keeps f _ _).2.2.2.2.1

theorem sentTo_send (d : App) (session : Nat) (f : Frame) (id : Nat) :
    (d.send session f).sentTo id = d.sentTo id ++ if session = id then [f] else [] := by
  simp [sentTo, send, Event.sentTo]

theorem sentTo_broadcast (d : App) (f : Frame) (id : Nat) :
    (d.broadcast f).sentTo id = d.sentTo id ++ if id < d.sessions.length then [f] else [] := by
  have once : ∀ n, (List.range n).flatMap (fun session => Event.sentTo id (.sent session f)) =
      if id < n then [f] else [] := by
    intro n
    induction n with
    | zero => rfl
    | succ n ih =>
      rw [List.range_succ, List.flatMap_append, ih, List.flatMap_singleton, Event.sentTo]
      by_cases before : id < n
      · rw [if_pos before, if_neg (by omega), if_pos (by omega), List.append_nil]
      · by_cases last : n = id
        · rw [if_neg before, if_pos last, if_pos (by omega), List.nil_append]
        · rw [if_neg before, if_neg last, if_neg (by omega), List.nil_append]
  rw [sentTo, broadcast_history, List.flatMap_append, List.flatMap_cons, List.flatMap_map, once,
    sentTo]
  rfl

theorem sentTo_log (d : App) (event : LinkEvent) (id : Nat) :
    (d.log (.link event)).sentTo id = d.sentTo id := by
  simp [sentTo, log, Event.sentTo]

theorem sentTo_greet (d : App) (id other : Nat) :
    (d.greet id).sentTo other = d.sentTo other ++
      if id = other then
        [{ type := .Hello, payload := packString (text "exn_gsd") }, d.currentLinkFrame]
      else [] := by
  rw [greet, sentTo_send, sentTo_send]
  by_cases same : id = other <;> simp [same, sentTo]

theorem onPacket_keeps {generation : Nat} {bytes : List UInt8}
    (handled : d.onPacket env generation bytes = some t) :
    t.link = d.link ∧ t.sessions = d.sessions ∧ t.rest = d.rest := by
  simp only [onPacket, Option.bind_eq_bind, Option.bind_eq_some_iff] at handled
  obtain ⟨decoded, _, handled⟩ := handled
  cases decoded <;> cases handled <;> simp [keep, modifyState]

theorem foldlM_keeps {α : Type} {f : App → α → Option App}
    (keeps : ∀ (d t : App) (x : α), f d x = some t →
      t.link = d.link ∧ t.sessions = d.sessions ∧ t.rest = d.rest) (xs : List α) {d t : App}
    (handled : xs.foldlM f d = some t) :
    t.link = d.link ∧ t.sessions = d.sessions ∧ t.rest = d.rest := by
  refine Machine.foldlM_invariant
    (motive := fun _ u => u.link = d.link ∧ u.sessions = d.sessions ∧ u.rest = d.rest)
    (fun x _ u v before taken => ?_) xs ⟨rfl, rfl, rfl⟩ handled
  obtain ⟨link, sessions, rest⟩ := keeps u v x taken
  rwa [link, sessions, rest]

theorem onLinkEvent_keeps {event : LinkEvent} (handled : d.onLinkEvent env event = some t) :
    t.link = d.link ∧ t.sessions = d.sessions ∧ t.rest = d.rest := by
  cases event with
  | onBytes generation data =>
    have packet : ∀ (d t : App) (bytes : List UInt8), d.onPacket env generation bytes = some t →
        t.link = d.link ∧ t.sessions = d.sessions ∧ t.rest = d.rest :=
      fun _ _ _ handled => onPacket_keeps handled
    have packets := foldlM_keeps packet _ handled
    exact packets
  | onState opened detail => cases handled; simp [publishLinkState, modifyState, log]
  | onError err => cases handled; simp [publishLinkState, modifyState, log]
  | _ => cases handled; exact ⟨rfl, rfl, rfl⟩

theorem onLink_keeps {turn : SerialLink × List LinkEvent} (handled : d.onLink env turn = some t) :
    t.link = turn.1 ∧ t.sessions = d.sessions ∧ t.rest = d.rest :=
  foldlM_keeps (fun _ _ _ => onLinkEvent_keeps) _ handled

theorem greeting_rest {d t : App} (rest : t.rest = d.rest) : t.greeting = d.greeting := by
  rw [greeting, greeting, rest]

theorem onFrame_moves {f : Frame} {id : Nat} (known : id < d.sessions.length)
    (idle : d.greeting = none) (handled : d.onFrame env f id = some t) :
    ReflTransGen (Move env (some id)) d t := by
  have started : ∀ {d t : App}, d.greeting = none → d.onLink env (d.link.start env.device) = some t →
      ReflTransGen (Move env (some id)) d t :=
    fun idle ran => .single (.turned .start idle ran)
  have ticked : Move env (some id) d { d with clock := d.clock + 1 } :=
    .quiet ⟨rfl, rfl, rfl, rfl, rfl, rfl⟩
  cases handled_of_onFrame handled with
  | rejected message _ _ => exact .head ticked (.single (.answered rfl known idle (.error message)))
  | sent _ decoded opened posted => exact .head ticked (.single (.sent decoded opened idle posted))
  | answered _ _ answers => exact .single (.answered rfl known idle answers)
  | started _ ran => exact started idle ran
  | stopped _ ran => exact .single (.turned .stop idle ran)
  | restarted _ stopped ran =>
    have still := (greeting_rest (onLink_keeps stopped).2.2).trans idle
    exact .head (.turned .stop idle stopped) (started still ran)

theorem foldl_initiate (ops : List Op) (d : App) :
    ops.foldl initiate d = { d with outstanding := d.outstanding ++ ops } := by
  induction ops generalizing d with
  | nil => simp
  | cons op ops ih => simp [ih, initiate]

theorem onSession_eq (d : App) (id : Nat) (e : EventLoop.Effects IpcSession SessionOp SharedBytes) :
    d.onSession id e = { d.setSession id e.state with
      outstanding := d.outstanding ++ e.started.map (.session id) } :=
  foldl_initiate _ _

theorem same_setSession (d : App) (id : Nat) (session : IpcSession) :
    d.Same (d.setSession id session) :=
  ⟨rfl, rfl, rfl, rfl, List.length_set, rfl⟩

theorem same_onSession (d : App) (id : Nat)
    (effects : EventLoop.Effects IpcSession SessionOp SharedBytes) :
    d.Same (d.onSession id effects) := by
  rw [onSession_eq]
  exact (same_setSession d id effects.state).trans ⟨rfl, rfl, rfl, rfl, rfl, rfl⟩

theorem Stepped.quiet {a : Action} (silent : d.request a = none) (same : d.Same t) :
    Stepped env d a t :=
  .unasked silent (.refl d) (.quiet same)

theorem Stepped.turned {a : Action} {d' : App} {turn : SerialLink × List LinkEvent}
    (silent : d.request a = none) (same : d.Same d') (turned : d'.link.Turn env.device turn)
    (idle : d'.greeting = none) (handled : d'.onLink env turn = some t) : Stepped env d a t :=
  .unasked silent same (.turned turned idle handled)

theorem decode_stepped {id : Nat} {session : IpcSession} (resumed : d.rest = some (.decode id))
    (here : d.sessions[id]? = some session)
    (handled : { d with rest := none }.decode env id session = some t) : Stepped env d .run t := by
  have known := (List.getElem?_eq_some_iff.mp here).1
  have idle : d.greeting = none := by simp [greeting, resumed]
  have begun : d.Same { d with rest := none } := ⟨rfl, rfl, rfl, rfl, rfl, idle.symm⟩
  simp only [decode, Option.bind_eq_bind, Option.bind_eq_some_iff] at handled
  obtain ⟨⟨found, rxbuf, f⟩, decoded, handled⟩ := handled
  have next : d.request .run =
      if found && IpcSession.isRequest f then some (id, f) else none := by
    simp [request, resumed, here, decoded]
  have same := begun.trans (same_setSession _ id { session with rxbuf })
  simp only at handled
  split at handled
  next wait =>
    cases handled
    exact .quiet (by rw [next, wait]; rfl) (same.trans ⟨rfl, rfl, rfl, rfl, rfl, rfl⟩)
  next whole =>
    have found : found = true := by simpa using whole
    have later : d.Same { { d with rest := none }.setSession id { session with rxbuf } with
        rest := some (.decode id) } := same.trans ⟨rfl, rfl, rfl, rfl, rfl, rfl⟩
    split at handled
    next asks => exact .asked (by rw [next, found, asks]; rfl) known idle later rfl handled
    next other =>
      cases handled
      exact .quiet (by rw [next, if_neg (by simp [other])]) later

theorem resume_stepped {rest : Rest} (resumed : d.rest = some rest)
    (handled : { d with rest := none }.resume env rest = some t) : Stepped env d .run t := by
  cases rest with
  | boot =>
    have silent : d.request .run = none := by simp [request, resumed]
    have begun : d.Same { d with rest := none } :=
      ⟨rfl, rfl, rfl, rfl, rfl, by simp [greeting, resumed]⟩
    simp only [resume] at handled
    split at handled
    next =>
      cases handled
      exact .quiet silent begun
    next => exact .turned silent begun .start rfl handled
  | greet id =>
    have silent : d.request .run = none := by simp [request, resumed]
    cases handled
    have greeted : d.greeting = some id := by simp [greeting, resumed]
    exact .greeted silent greeted ⟨rfl, rfl, rfl, rfl, rfl, rfl⟩
  | decode id =>
    have begun : d.Same { d with rest := none } :=
      ⟨rfl, rfl, rfl, rfl, rfl, by simp [greeting, resumed]⟩
    simp only [resume] at handled
    split at handled
    next gone =>
      have none : d.sessions[id]? = none := gone
      cases handled
      exact .quiet (by simp [request, resumed, none]) begun
    next session here => exact decode_stepped resumed here handled

theorem runTask_stepped {task : Task} {ready : List Task} (idle : d.rest = none)
    (handled : { d with ready }.runTask env task = some t) : Stepped env d .run t := by
  have waits : d.greeting = none := by simp [greeting, idle]
  have silent : d.request .run = none := by simp [request, idle]
  have begun : d.Same { d with ready } := ⟨rfl, rfl, rfl, rfl, rfl, rfl⟩
  cases task with
  | accepted result =>
    simp only [runTask] at handled
    split at handled
    next =>
      cases handled
      exact .quiet silent ⟨rfl, rfl, rfl, rfl, rfl, rfl⟩
    next =>
      cases handled
      have started : d.Same ({ d with ready }.initiate (.session d.sessions.length .read)) :=
        ⟨rfl, rfl, rfl, rfl, rfl, rfl⟩
      exact .welcomed silent started waits rfl
  | session id op result =>
    simp only [runTask] at handled
    split at handled
    next =>
      cases handled
      exact .quiet silent begun
    next session _ =>
      split at handled
      next =>
        cases handled
        exact .quiet silent (begun.trans (same_onSession _ _ _))
      next data =>
        cases handled
        have read := begun.trans
          (same_setSession { d with ready } id { session with rxbuf := session.rxbuf ++ data })
        exact .quiet silent (read.trans ⟨rfl, rfl, rfl, rfl, rfl, waits.symm⟩)
      next =>
        obtain ⟨effects, _, rfl⟩ := Option.map_eq_some_iff.mp handled
        exact .quiet silent (begun.trans (same_onSession _ _ _))
  | send id bytes =>
    simp only [runTask] at handled
    split at handled <;> cases handled
    next => exact .quiet silent begun
    next => exact .quiet silent (begun.trans (same_onSession _ _ _))
  | link op result => exact .turned silent begun (.handled op result) waits handled
  | transmit bytes => exact .turned silent begun (.transmitted bytes) waits handled

/-- Every step of the daemon handles one request, or it is a move that no session asked for. -/
theorem step_stepped {a : Action} (taken : step env d a = .next t) : Stepped env d a t := by
  cases a with
  | finish i result =>
    simp only [step] at taken
    split at taken
    next => cases taken
    next =>
      split at taken
      next =>
        cases taken
        exact .quiet rfl ⟨rfl, rfl, rfl, rfl, rfl, rfl⟩
      next => cases taken
  | run =>
    simp only [step] at taken
    split at taken
    next rest resumed => exact resume_stepped resumed (Machine.outcome_eq_next taken)
    next task ready idle _ =>
      exact runTask_stepped idle (Machine.outcome_eq_next taken)
    next => cases taken

theorem moves_preserve {inv : App → Prop}
    (preserved : ∀ asker d t, inv d → Move env asker d t → inv t) (start : inv d)
    (moves : ReflTransGen (Move env asker) d t) : inv t := by
  induction moves with
  | refl => exact start
  | tail _ move ih => exact preserved _ _ _ ih move

/-- What moves, new sessions and their greetings preserve, every step of the daemon does. -/
theorem step_preserves {inv : App → Prop}
    (moves : ∀ asker d t, inv d → Move env asker d t → inv t)
    (welcomes : ∀ d, inv d → d.greeting = none → inv d.welcome)
    (greets : ∀ d id, inv d → d.greeting = some id → inv (d.greet id)) (start : inv d) {a : Action}
    (taken : step env d a = .next t) : inv t := by
  have quiet : ∀ {d t : App}, inv d → d.Same t → inv t :=
    fun holds same => moves none _ _ holds (.quiet same)
  cases step_stepped taken with
  | asked _ known idle same _ handled =>
    exact moves_preserve moves (quiet start same)
      (onFrame_moves (same.sessions ▸ known) (same.greeting ▸ idle) handled)
  | unasked _ same move => exact moves none _ _ (quiet start same) move
  | welcomed _ same idle after =>
    rw [after]
    exact welcomes _ (quiet start same) idle
  | greeted _ greeting same => exact quiet (greets d _ start greeting) same

end App

end ExnGs.Daemon
