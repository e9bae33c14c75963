import ExnGs.Daemon.Moves

set_option autoImplicit false

namespace ExnGs

def PacketRecord.timeless (record : PacketRecord) : PacketRecord := { record with tsNs := 0 }

namespace Proto

-- The metadata of a packet begin with its time stamp.
def Frame.timeless (f : Frame) : Frame :=
  if f.type = .PacketRx ∨ f.type = .PacketTx then { f with payload := f.payload.drop 8 } else f

end Proto

-- States of the daemon between which only one session can tell, but for the time stamps.
namespace Daemon

open Proto SpacePacket Framer

namespace StateStore

def timeless (s : StateStore) : StateStore :=
  { s with
    snap := { s.snap with
      services := fun key => (s.snap.services key).map fun _ => { lastSeenNs := 0 } }
    ring := s.ring.map PacketRecord.timeless }

theorem timeless_setLink (s : StateStore) (st : LinkState) (detail : Text) :
    (s.setLink st detail).timeless = s.timeless.setLink st detail := rfl

theorem timeless_onTx (s : StateStore) (bytes : Nat) :
    (s.onTx bytes).timeless = s.timeless.onTx bytes := rfl

theorem timeless_onDecodeError (s : StateStore) :
    s.onDecodeError.timeless = s.timeless.onDecodeError := rfl

theorem timeless_onPacket (s : StateStore) (record : PacketRecord) :
    (s.onPacket record).timeless = s.timeless.onPacket record.timeless := by
  simp only [onPacket, timeless, PacketRecord.timeless, List.map_drop, List.map_append,
    List.map_cons, List.map_nil, List.length_append, List.length_map, List.length_cons,
    List.length_nil, mk.injEq, StateSnapshot.mk.injEq, true_and, and_true]
  funext key
  rw [apply_ite (Option.map _)]
  rfl

end StateStore

def blank : SharedBytes := { id := 0, bytes := [] }

def SessionOp.outline : SessionOp → SessionOp
  | .read => .read
  | .write _ => .write blank

namespace IpcSession

open EventLoop

def outline (s : IpcSession) : IpcSession := { s with txQueue := s.txQueue.map fun _ => blank }

def outlines (effects : Effects IpcSession SessionOp SharedBytes) :
    Effects IpcSession SessionOp SharedBytes :=
  { state := effects.state.outline, started := effects.started.map SessionOp.outline }

theorem outline_doWrite (s : IpcSession) :
    s.outline.doWrite = s.doWrite.map SessionOp.outline := by
  obtain ⟨sockOpen, rxbuf, txQueue⟩ := s
  cases txQueue with
  | nil => rfl
  | cons bytes rest =>
    cases sockOpen with
    | false => rfl
    | true => rfl

theorem outline_runSend (s : IpcSession) (bytes : SharedBytes) :
    s.outline.runSend blank = outlines (s.runSend bytes) := by
  obtain ⟨sockOpen, rxbuf, txQueue⟩ := s
  cases sockOpen with
  | false => rfl
  | true =>
    cases txQueue with
    | nil => rfl
    | cons first rest => simp [runSend, outline, outlines]

theorem outline_onWritten (s : IpcSession) (result : Completion) :
    s.outline.onWritten result = (s.onWritten result).map outlines := by
  obtain ⟨sockOpen, rxbuf, txQueue⟩ := s
  cases result with
  | error message => rfl
  | ok data =>
    cases txQueue with
    | nil => rfl
    | cons first rest =>
      have popped := outline_doWrite { sockOpen, rxbuf, txQueue := rest }
      simp only [outline] at popped
      simp only [onWritten, outline, List.map_cons, Option.map_some, outlines, popped]

end IpcSession

-- What the operations, the tasks and the history look like to those who see neither what one session
-- is sent nor what it sends.
def Op.seen (own : Nat) : Op → Option Op
  | .session id (.write _) => if id = own then none else some (.session id (.write blank))
  | op => some op

theorem Op.seen_cases {own : Nat} {op shown : Op} (seen : op.seen own = some shown) :
    shown = op ∨ ∃ id bytes, id ≠ own ∧ op = .session id (.write bytes) ∧
      shown = .session id (.write blank) := by
  cases op with
  | session id op =>
    cases op with
    | read => exact .inl (Option.some.inj seen).symm
    | write bytes =>
      rw [Op.seen] at seen
      split at seen
      next => cases seen
      next other => exact .inr ⟨id, bytes, other, rfl, (Option.some.inj seen).symm⟩
  | _ => exact .inl (Option.some.inj seen).symm

def Task.seen (own : Nat) : Task → Option Task
  | .session id (.write _) result =>
    if id = own then none else some (.session id (.write blank) result)
  | .session id .read (.ok data) => some (.session id .read (.ok (if id = own then [] else data)))
  | .send id _ => if id = own then none else some (.send id blank)
  | task => some task

inductive Task.Shows (own : Nat) : Task → Task → Prop
  | accepted (result : Completion) : Shows own (.accepted result) (.accepted result)
  | failed (id : Nat) (message : Text) :
      Shows own (.session id .read (.error message)) (.session id .read (.error message))
  | read {id : Nat} (other : id ≠ own) (data : List UInt8) :
      Shows own (.session id .read (.ok data)) (.session id .read (.ok data))
  | ownRead (data : List UInt8) :
      Shows own (.session own .read (.ok data)) (.session own .read (.ok []))
  | written {id : Nat} (other : id ≠ own) (bytes : SharedBytes) (result : Completion) :
      Shows own (.session id (.write bytes) result) (.session id (.write blank) result)
  | sent {id : Nat} (other : id ≠ own) (bytes : SharedBytes) :
      Shows own (.send id bytes) (.send id blank)
  | link (op : LinkOp) (result : Completion) : Shows own (.link op result) (.link op result)
  | transmit (bytes : TxPacket) : Shows own (.transmit bytes) (.transmit bytes)

inductive Task.Hides (own : Nat) : Task → Prop
  | written (bytes : SharedBytes) (result : Completion) :
      Hides own (.session own (.write bytes) result)
  | sent (bytes : SharedBytes) : Hides own (.send own bytes)

theorem Task.seen_cases (own : Nat) (task : Task) :
    (∃ shown, task.seen own = some shown ∧ Shows own task shown) ∨
      (task.seen own = none ∧ Hides own task) := by
  cases task with
  | accepted result => exact .inl ⟨_, rfl, .accepted result⟩
  | link op result => exact .inl ⟨_, rfl, .link op result⟩
  | transmit bytes => exact .inl ⟨_, rfl, .transmit bytes⟩
  | send id bytes =>
    by_cases mine : id = own
    · subst mine
      exact .inr ⟨if_pos rfl, .sent bytes⟩
    · exact .inl ⟨_, if_neg mine, .sent mine bytes⟩
  | session id op result =>
    by_cases mine : id = own
    · subst mine
      cases op with
      | write bytes => exact .inr ⟨if_pos rfl, .written bytes result⟩
      | read =>
        cases result with
        | error message => exact .inl ⟨_, rfl, .failed id message⟩
        | ok data => exact .inl ⟨_, by rw [seen, if_pos rfl], .ownRead data⟩
    · cases op with
      | write bytes => exact .inl ⟨_, if_neg mine, .written mine bytes result⟩
      | read =>
        cases result with
        | error message => exact .inl ⟨_, rfl, .failed id message⟩
        | ok data => exact .inl ⟨_, by rw [seen, if_neg mine], .read mine data⟩

theorem Task.shows_of_seen {own : Nat} {task shown : Task} (seen : task.seen own = some shown) :
    Shows own task shown := by
  rcases seen_cases own task with ⟨shown', seen', shows⟩ | ⟨hidden, _⟩
  · rw [seen] at seen'
    cases seen'
    exact shows
  · rw [seen] at hidden
    cases hidden

theorem Task.hides_of_seen {own : Nat} {task : Task} (hidden : task.seen own = none) :
    Hides own task := by
  rcases seen_cases own task with ⟨shown, seen, _⟩ | ⟨_, hides⟩
  · rw [seen] at hidden
    cases hidden
  · exact hides

def Event.seen (own : Nat) : Event → Option Event
  | .sent id f => if id = own then none else some (.sent id f.timeless)
  | .stored record => some (.stored record.timeless)
  | .broadcast f => some (.broadcast f.timeless)
  | event => some event

namespace App

structure Alike (own : Nat) (d t : App) : Prop where
  link : t.link = d.link
  framer : t.framer = d.framer
  state : t.state.timeless = d.state.timeless
  rest : t.rest = d.rest
  sessions : t.sessions.length = d.sessions.length
  others : ∀ id, id ≠ own →
    t.sessions[id]?.map IpcSession.outline = d.sessions[id]?.map IpcSession.outline
  ready : t.ready.filterMap (Task.seen own) = d.ready.filterMap (Task.seen own)
  outstanding : t.outstanding.filterMap (Op.seen own) = d.outstanding.filterMap (Op.seen own)
  history : t.history.filterMap (Event.seen own) = d.history.filterMap (Event.seen own)

variable {env : Env} {own : Nat} {d t : App}

theorem Alike.refl (d : App) : d.Alike own d :=
  ⟨rfl, rfl, rfl, rfl, rfl, fun _ _ => rfl, rfl, rfl, rfl⟩

theorem Alike.symm (alike : d.Alike own t) : t.Alike own d where
  link := alike.link.symm
  framer := alike.framer.symm
  state := alike.state.symm
  rest := alike.rest.symm
  sessions := alike.sessions.symm
  others := fun id other => (alike.others id other).symm
  ready := alike.ready.symm
  outstanding := alike.outstanding.symm
  history := alike.history.symm

theorem Alike.trans {d' : App} (first : d.Alike own d') (later : d'.Alike own t) : d.Alike own t where
  link := later.link.trans first.link
  framer := later.framer.trans first.framer
  state := later.state.trans first.state
  rest := later.rest.trans first.rest
  sessions := later.sessions.trans first.sessions
  others := fun id other => (later.others id other).trans (first.others id other)
  ready := later.ready.trans first.ready
  outstanding := later.outstanding.trans first.outstanding
  history := later.history.trans first.history

theorem filterMap_concat {α β : Type} {f : α → Option β} {xs ys : List α} {x y : α}
    (before : ys.filterMap f = xs.filterMap f) (same : f y = f x) :
    (ys ++ [y]).filterMap f = (xs ++ [x]).filterMap f := by
  simp only [List.filterMap_append, List.filterMap_cons, List.filterMap_nil, before, same]

theorem Alike.send (alike : d.Alike own t) (id : Nat) {f g : Frame} (same : g.timeless = f.timeless) :
    (d.send id f).Alike own (t.send id g) :=
  { alike with
    ready := filterMap_concat alike.ready rfl
    history := filterMap_concat alike.history (by rw [Event.seen, Event.seen, same]) }

theorem alike_send_own (d : App) (f : Frame) : d.Alike own (d.send own f) :=
  { Alike.refl d with
    ready := by simp [App.send, Task.seen]
    history := by simp [App.send, Event.seen] }

theorem Alike.log (alike : d.Alike own t) {event event' : Event}
    (same : event'.seen own = event.seen own) : (d.log event).Alike own (t.log event') :=
  { alike with history := filterMap_concat alike.history same }

theorem Alike.modifyState (alike : d.Alike own t) {f : StateStore → StateStore}
    (same : (f t.state).timeless = (f d.state).timeless) :
    (d.modifyState f).Alike own (t.modifyState f) :=
  { alike with state := same }

theorem Alike.initiate (alike : d.Alike own t) {op op' : Op} (same : op'.seen own = op.seen own) :
    (d.initiate op).Alike own (t.initiate op') :=
  { alike with outstanding := filterMap_concat alike.outstanding same }

theorem Alike.broadcast (alike : d.Alike own t) {f g : Frame} (same : g.timeless = f.timeless) :
    (d.broadcast f).Alike own (t.broadcast g) := by
  have each : ∀ (ids : List Nat) {d t : App}, d.Alike own t →
      (ids.foldl (fun d session => d.send session f) d).Alike own
        (ids.foldl (fun d session => d.send session g) t) := by
    intro ids
    induction ids with
    | nil => exact fun alike => alike
    | cons id ids ih => exact fun alike => ih (alike.send id same)
  rw [App.broadcast, App.broadcast, alike.sessions]
  exact each _ (alike.log (by rw [Event.seen, Event.seen, same]))

theorem Alike.currentLinkFrame (alike : d.Alike own t) : t.currentLinkFrame = d.currentLinkFrame := by
  have link : t.state.snap.link = d.state.snap.link :=
    congrArg (fun s => s.snap.link) alike.state
  have detail : t.state.snap.linkDetail = d.state.snap.linkDetail :=
    congrArg (fun s => s.snap.linkDetail) alike.state
  simp only [App.currentLinkFrame, link, detail]

theorem Alike.formatStats (alike : d.Alike own t) :
    formatStats t.state.snap = formatStats d.state.snap := by
  have unread : ∀ s : StateStore, Daemon.formatStats s.snap = Daemon.formatStats s.timeless.snap := by
    intro s
    simp only [Daemon.formatStats, StateStore.timeless]
  rw [unread, unread d.state, alike.state]

theorem Alike.setLink (alike : d.Alike own t) (st : LinkState) (detail : Text) :
    (d.modifyState fun state => state.setLink st detail).publishLinkState.Alike own
      (t.modifyState fun state => state.setLink st detail).publishLinkState := by
  have set := alike.modifyState (f := fun state => state.setLink st detail) (by
    rw [StateStore.timeless_setLink, StateStore.timeless_setLink, alike.state])
  rw [publishLinkState, publishLinkState, set.currentLinkFrame]
  exact set.broadcast rfl

theorem Alike.keep (alike : d.Alike own t) (generation : Nat) {record record' : PacketRecord}
    (same : record'.timeless = record.timeless) :
    (d.keep generation record).Alike own (t.keep generation record') :=
  { alike with
    state := by
      change (t.state.onPacket record').timeless = (d.state.onPacket record).timeless
      rw [StateStore.timeless_onPacket, StateStore.timeless_onPacket, alike.state, same]
    history := by
      have raw : record'.timeless.raw = record.timeless.raw := by rw [same]
      have raw : record'.raw = record.raw := raw
      simp only [App.keep, List.filterMap_append, alike.history, List.filterMap_cons, Event.seen,
        raw, same] }

/-- Both handlers return, and nothing tells between the results, or neither is defined. -/
def Matched (own : Nat) : Option App → Option App → Prop := Option.Rel (Alike own)

theorem Alike.matched (alike : d.Alike own t) : Matched own (some d) (some t) := .some alike

theorem Matched.bind {result result' : Option App} {f g : App → Option App}
    (first : Matched own result result')
    (later : ∀ d t : App, d.Alike own t → Matched own (f d) (g t)) :
    Matched own (result.bind f) (result'.bind g) := by
  cases first with
  | none => exact .none
  | some alike => exact later _ _ alike

theorem Matched.symm {result result' : Option App} (matched : Matched own result result') :
    Matched own result' result := by
  cases matched with
  | none => exact .none
  | some alike => exact .some alike.symm

theorem Matched.trans {result result' result'' : Option App} (first : Matched own result result')
    (later : Matched own result' result'') : Matched own result result'' := by
  cases first with
  | none => exact later
  | some alike =>
    cases later with
    | some alike' => exact .some (alike.trans alike')

theorem Matched.next {result result' : Option App} (matched : Matched own result result')
    (handled : result = some d) : ∃ t, result' = some t ∧ d.Alike own t := by
  subst handled
  cases matched with
  | some alike => exact ⟨_, rfl, alike⟩

theorem foldlM_matched {α : Type} {f : App → α → Option App}
    (each : ∀ (d t : App) (x : α), d.Alike own t → Matched own (f d x) (f t x)) (xs : List α)
    {d t : App} (alike : d.Alike own t) : Matched own (xs.foldlM f d) (xs.foldlM f t) := by
  induction xs generalizing d t with
  | nil => exact alike.matched
  | cons x xs ih =>
    rw [List.foldlM_cons, List.foldlM_cons]
    exact (each d t x alike).bind fun _ _ => ih

theorem rxRecord_timeless (decoded : Except Text PacketMeta) (earlier now stamp : UInt64)
    (bytes : List UInt8) :
    (rxRecord (decoded.map fun m => { m with tsNs := stamp }) now bytes).timeless =
      (rxRecord decoded earlier bytes).timeless := by
  cases decoded with
  | error message => rfl
  | ok m => rfl

theorem makePacketFrame_timeless (type : MsgType) (packets : type = .PacketRx ∨ type = .PacketTx)
    (m : PacketMeta) (stamp : UInt64) (desc : Text) :
    (makePacketFrame type { m with tsNs := stamp } desc).timeless =
      (makePacketFrame type m desc).timeless := by
  have stripped : ∀ f : Frame, f.type = .PacketRx ∨ f.type = .PacketTx →
      f.timeless = { f with payload := f.payload.drop 8 } := fun _ packets => if_pos packets
  rw [stripped (makePacketFrame _ _ _) packets, stripped (makePacketFrame _ _ _) packets]
  simp only [makePacketFrame, packPacketMeta, appendU64, appendU16, List.nil_append,
    List.cons_append, List.drop_succ_cons, List.drop_zero]

theorem Alike.onPacket (alike : d.Alike own t) (generation : Nat) (bytes : List UInt8) :
    Matched own (d.onPacket env generation bytes) (t.onPacket env generation bytes) := by
  have inspected := decodeMeta_stamped env.lib (env.now d.clock) (env.now t.clock) bytes
  simp only [App.onPacket, inspected]
  cases decodeMeta env.lib (env.now d.clock) bytes with
  | none => exact .none
  | some decoded =>
    have kept := alike.keep generation
      (rxRecord_timeless decoded (env.now (d.clock + 1)) (env.now (t.clock + 1)) (env.now t.clock) bytes)
    cases decoded with
    | error message =>
      have counted := kept.modifyState (f := StateStore.onDecodeError) (by
        rw [StateStore.timeless_onDecodeError, StateStore.timeless_onDecodeError, kept.state])
      exact (counted.broadcast rfl).matched
    | ok m => exact (kept.broadcast (makePacketFrame_timeless _ (.inl rfl) m _ _)).matched

theorem Alike.onLinkEvent (alike : d.Alike own t) (event : LinkEvent) :
    Matched own (d.onLinkEvent env event) (t.onLinkEvent env event) := by
  have logged : (d.log (.link event)).Alike own (t.log (.link event)) := alike.log rfl
  cases event with
  | start op => exact (logged.initiate rfl).matched
  | post packet => exact Alike.matched { logged with ready := filterMap_concat logged.ready rfl }
  | onState opened detail => exact (logged.setLink _ _).matched
  | onError err => exact (logged.setLink _ _).matched
  | onBytes generation data =>
    simp only [App.onLinkEvent]
    have framer : (t.log (.link (.onBytes generation data))).framer =
        (d.log (.link (.onBytes generation data))).framer := logged.framer
    rw [framer]
    exact foldlM_matched (fun _ _ bytes alike => alike.onPacket generation bytes) _
      { logged with framer := rfl }
  | queued generation packet => exact logged.matched
  | discarded packet => exact logged.matched

theorem Alike.onLink (alike : d.Alike own t) (turn : SerialLink × List LinkEvent) :
    Matched own (d.onLink env turn) (t.onLink env turn) :=
  foldlM_matched (fun _ _ event alike => alike.onLinkEvent event) _ { alike with link := rfl }

theorem Alike.onFrame (alike : d.Alike own t) (f : Frame) (id : Nat) :
    Matched own (d.onFrame env f id) (t.onFrame env f id) := by
  have answers : ∀ g : Frame, Matched own (some (d.send id g)) (some (t.send id g)) :=
    fun g => (alike.send id rfl).matched
  have start : ∀ {d t : App}, d.Alike own t →
      Matched own (d.onLink env (d.link.start env.device)) (t.onLink env (t.link.start env.device)) := by
    intro d t alike
    rw [alike.link]
    exact alike.onLink _
  have stop : Matched own (d.onLink env d.link.stop) (t.onLink env t.link.stop) := by
    rw [alike.link]
    exact alike.onLink _
  by_cases type : f.type = .PacketSend
  · have inspected := decodeMeta_stamped env.lib (env.now d.clock) (env.now t.clock) f.payload
    have ticked : App.Alike own { d with clock := d.clock + 1 } { t with clock := t.clock + 1 } :=
      { alike with }
    simp only [App.onFrame, if_pos type, inspected]
    cases decodeMeta env.lib (env.now d.clock) f.payload with
    | none => exact .none
    | some decoded =>
      cases decoded with
      | error message => exact (ticked.send id rfl).matched
      | ok m =>
        simp only [Option.map_some, Except.map, Option.bind_eq_bind, Option.bind_some, alike.link]
          at ticked ⊢
        split
        next => exact (ticked.send id rfl).matched
        next =>
          refine (ticked.onLink _).bind fun d t alike => ?_
          have sent := alike.modifyState (f := fun state => state.onTx f.payload.length) (by
            rw [StateStore.timeless_onTx, StateStore.timeless_onTx, alike.state])
          exact (sent.broadcast (makePacketFrame_timeless _ (.inr rfl) m _ _)).matched
  · simp only [App.onFrame, if_neg type]
    cases unpackString f.payload [] with
    | none => exact .none
    | some unpacked =>
      obtain ⟨ok, command⟩ := unpacked
      simp only [Option.bind_eq_bind, Option.bind_some, alike.link, alike.currentLinkFrame,
        alike.formatStats]
      rw [alike.link] at stop
      split
      next => exact answers _
      split
      next =>
        split
        next => exact answers _
        next => exact alike.link ▸ start alike
      split
      next => exact stop
      split
      next => exact stop.bind fun _ _ => start
      split
      next => exact answers _
      split
      next => exact answers _
      split
      next => exact answers _
      next => exact answers _

theorem Alike.setSession (alike : d.Alike own t) (id : Nat) {session session' : IpcSession}
    (same : id ≠ own → session'.outline = session.outline) :
    (d.setSession id session).Alike own (t.setSession id session') :=
  { alike with
    sessions := by simp only [App.setSession, List.length_set, alike.sessions]
    others := by
      intro id' other
      by_cases here : id = id'
      · subst here
        simp only [App.setSession, List.getElem?_set, if_true, alike.sessions]
        split
        next => rw [Option.map_some, Option.map_some, same other]
        next => rfl
      · simp only [App.setSession, List.getElem?_set_ne here]
        exact alike.others id' other }

theorem alike_setSession_own (d : App) (session : IpcSession) :
    d.Alike own (d.setSession own session) := by
  refine { Alike.refl d with sessions := List.length_set, others := fun id other => ?_ }
  rw [App.setSession, List.getElem?_set_ne (Ne.symm other)]

end App

end Daemon

end ExnGs
