import ExnGs.Daemon.FanOut
import ExnGs.Daemon.Intake
import ExnGs.Daemon.Wire

set_option autoImplicit false

-- What each client is sent, in whatever way the daemon's tasks and operations follow each other.
namespace ExnGs.Daemon

open Proto SpacePacket Framer Machine

def Task.sends (own : Nat) : Task → Option SharedBytes
  | .send id bytes => if id = own then some bytes else none
  | _ => none

def Task.wrote (own : Nat) : Task → Option (SharedBytes × Bool)
  | .session id (.write bytes) result => if id = own then some (bytes, result.isOk) else none
  | _ => none

def Op.writes (own : Nat) : Op → Option SharedBytes
  | .session id (.write bytes) => if id = own then some bytes else none
  | _ => none

namespace App

def txQueue (d : App) (own : Nat) : List SharedBytes := (d.sessions[own]?.map IpcSession.txQueue).getD []

def wire (d : App) (own : Nat) : Wire where
  known := own < d.sessions.length
  opened := d.socketOpen own
  queue := d.txQueue own
  posted := d.ready.filterMap (Task.sends own)
  ended := d.ready.filterMap (Task.wrote own)
  writing := d.outstanding.filterMap (Op.writes own)
  sent := (d.sentTo own).map encode

-- The bytes of a write of the session that ends without an error.
def wired (own : Nat) (d : App) : Action → List (List UInt8)
  | .finish i (.ok _) =>
    match d.outstanding[i]? with
    | some op => ((op.writes own).map SharedBytes.bytes).toList
    | none => []
  | _ => []

/-- From one state to another the session was only passed frames to send. -/
structure Sends (own : Nat) (d t : App) : Prop where
  sessions : t.sessions = d.sessions
  rest : t.rest = d.rest
  wire : ∃ more, (more ≠ [] → own < d.sessions.length) ∧ t.wire own = (d.wire own).sends more

variable {env : Env} {own id : Nat} {d t : App} {session : IpcSession}

theorem wire_eq (sessions : t.sessions = d.sessions)
    (posted : t.ready.filterMap (Task.sends own) = d.ready.filterMap (Task.sends own))
    (ended : t.ready.filterMap (Task.wrote own) = d.ready.filterMap (Task.wrote own))
    (writing : t.outstanding.filterMap (Op.writes own) = d.outstanding.filterMap (Op.writes own))
    (sent : t.sentTo own = d.sentTo own) : t.wire own = d.wire own := by
  simp only [wire, socketOpen, txQueue, sessions, posted, ended, writing, sent]

theorem Sends.quiet (sessions : t.sessions = d.sessions) (rest : t.rest = d.rest)
    (same : t.wire own = d.wire own) : Sends own d t := by
  refine ⟨sessions, rest, [], fun more => absurd rfl more, ?_⟩
  rw [same, Wire.sends, List.append_nil, List.map_nil, List.append_nil]

theorem Sends.refl (d : App) : Sends own d d := .quiet rfl rfl rfl

theorem Sends.trans {d' : App} (first : Sends own d d') (later : Sends own d' t) : Sends own d t := by
  obtain ⟨more, known, wire⟩ := first.wire
  obtain ⟨more', known', wire'⟩ := later.wire
  refine ⟨later.sessions.trans first.sessions, later.rest.trans first.rest, more ++ more', ?_, ?_⟩
  · intro sending
    cases more with
    | nil => exact first.sessions ▸ known' sending
    | cons b rest => exact known (List.cons_ne_nil b rest)
  · rw [wire', wire]
    simp only [Wire.sends, List.append_assoc, List.map_append]

theorem wire_send (d : App) (id : Nat) (f : Frame) :
    (d.send id f).wire own =
      (d.wire own).sends (if id = own then [IpcSession.send d.allocated f] else []) := by
  simp only [wire, Wire.sends, Wire.mk.injEq]
  refine ⟨rfl, rfl, rfl, ?_, ?_, rfl, ?_⟩
  · rw [App.send, List.filterMap_append]
    by_cases mine : id = own <;> simp [Task.sends, mine]
  · rw [App.send, List.filterMap_append]
    simp [Task.wrote]
  · rw [sentTo_send]
    by_cases mine : id = own <;> simp [mine, IpcSession.send]

theorem sends_send (known : id < d.sessions.length) (f : Frame) : Sends own d (d.send id f) := by
  refine ⟨rfl, rfl, _, fun sending => ?_, wire_send d id f⟩
  split at sending
  next mine => exact mine ▸ known
  next => exact absurd rfl sending

theorem sends_broadcast (d : App) (f : Frame) : Sends own d (d.broadcast f) := by
  have each : ∀ (ids : List Nat) (d : App), (∀ id ∈ ids, id < d.sessions.length) →
      Sends own d (ids.foldl (fun d session => d.send session f) d) := by
    intro ids
    induction ids with
    | nil => exact fun d _ => .refl d
    | cons id ids ih =>
      intro d known
      obtain ⟨here, later⟩ := List.forall_mem_cons.mp known
      exact (sends_send here f).trans (ih _ later)
  have logged : Sends own d (d.log (.broadcast f)) :=
    .quiet rfl rfl (wire_eq rfl rfl rfl rfl (by simp [log, sentTo, Event.sentTo]))
  exact logged.trans (each _ _ fun id member => List.mem_range.mp member)

theorem sends_setLink (d : App) (st : LinkState) (detail : Text) :
    Sends own d (d.modifyState fun state => state.setLink st detail).publishLinkState := by
  have set : Sends own d (d.modifyState fun state => state.setLink st detail) := .quiet rfl rfl rfl
  exact set.trans (sends_broadcast _ _)

theorem onPacket_sends {generation : Nat} {bytes : List UInt8}
    (handled : d.onPacket env generation bytes = some t) : Sends own d t := by
  simp only [onPacket, Option.bind_eq_bind, Option.bind_eq_some_iff] at handled
  obtain ⟨decoded, _, handled⟩ := handled
  generalize rxRecord decoded (env.now (d.clock + 1)) bytes = record at handled
  have kept : Sends own d (d.keep generation record) :=
    .quiet rfl rfl (wire_eq rfl rfl rfl rfl (by simp [keep, sentTo, Event.sentTo]))
  cases decoded with
  | error message =>
    cases handled
    have counted : Sends own d ((d.keep generation record).modifyState .onDecodeError) :=
      kept.trans (.quiet rfl rfl rfl)
    exact counted.trans (sends_broadcast _ _)
  | ok m =>
    cases handled
    exact kept.trans (sends_broadcast _ _)

theorem onLinkEvent_sends {event : LinkEvent} (handled : d.onLinkEvent env event = some t) :
    Sends own d t := by
  have logged : Sends own d (d.log (.link event)) :=
    .quiet rfl rfl (wire_eq rfl rfl rfl rfl (sentTo_log d event own))
  cases event with
  | start op =>
    cases handled
    have started : Sends own (d.log (.link (.start op))) ((d.log (.link (.start op))).initiate (.link op)) :=
      .quiet rfl rfl (wire_eq rfl rfl rfl (by simp [initiate, Op.writes]) rfl)
    exact logged.trans started
  | onState opened detail =>
    cases handled
    exact logged.trans (sends_setLink _ _ _)
  | onError err =>
    cases handled
    exact logged.trans (sends_setLink _ _ _)
  | onBytes generation data =>
    have pushed : Sends own d { d.log (.link (.onBytes generation data)) with
        framer := (pushBytes env.lib.declaredPacketSize d.framer data).1 } :=
      logged.trans (.quiet rfl rfl rfl)
    exact pushed.trans (Machine.foldlM_related Sends.refl Sends.trans
      (fun _ _ _ handled => onPacket_sends handled) _ handled)
  | post packet =>
    cases handled
    refine logged.trans (.quiet rfl rfl (wire_eq rfl ?_ ?_ rfl rfl)) <;>
      simp [Task.sends, Task.wrote]
  | queued generation packet =>
    cases handled
    exact logged
  | discarded packet =>
    cases handled
    exact logged

theorem onLink_sends {turn : SerialLink × List LinkEvent} (handled : d.onLink env turn = some t) :
    Sends own d t := by
  have begun : Sends own d { d with link := turn.1 } := .quiet rfl rfl rfl
  exact begun.trans (Machine.foldlM_related Sends.refl Sends.trans
    (fun _ _ _ handled => onLinkEvent_sends handled) _ handled)

theorem onFrame_sends {f : Frame} (known : id < d.sessions.length)
    (handled : d.onFrame env f id = some t) : Sends own d t := by
  have ticked : Sends own d { d with clock := d.clock + 1 } := .quiet rfl rfl rfl
  cases handled_of_onFrame handled with
  | rejected message _ _ =>
    have answered : ∀ d : App, id < d.sessions.length → Sends own d (d.send id (makeErrorFrame message)) :=
      fun d known => sends_send known _
    exact ticked.trans (answered _ known)
  | @sent m d' _ _ _ posted =>
    have counted : Sends own d' (d'.modifyState fun state => state.onTx f.payload.length) :=
      .quiet rfl rfl rfl
    exact ticked.trans ((onLink_sends posted).trans (counted.trans (sends_broadcast _ _)))
  | answered _ _ _ => exact sends_send known _
  | started _ started => exact onLink_sends started
  | stopped _ stopped => exact onLink_sends stopped
  | restarted _ stopped started => exact (onLink_sends stopped).trans (onLink_sends started)

-- What a session that is handled starts and holds.
theorem wire_onSession (here : d.sessions[own]? = some session)
    (e : EventLoop.Effects IpcSession SessionOp SharedBytes) :
    (d.onSession own e).wire own = { d.wire own with
      opened := e.state.sockOpen
      queue := e.state.txQueue
      writing := (d.wire own).writing ++ e.started.filterMap fun op => (Op.session own op).writes own } := by
  have known := (List.getElem?_eq_some_iff.mp here).1
  have set : (d.sessions.set own e.state)[own]? = some e.state := List.getElem?_set_self known
  rw [onSession_eq]
  simp only [wire, setSession, socketOpen, txQueue, set, List.length_set, List.filterMap_append,
    List.filterMap_map]
  rfl

theorem wire_onSession_other (other : id ≠ own) (e : EventLoop.Effects IpcSession SessionOp SharedBytes) :
    (d.onSession id e).wire own = d.wire own := by
  have set : (d.sessions.set id e.state)[own]? = d.sessions[own]? := List.getElem?_set_ne other
  have silent : (e.started.map (Op.session id)).filterMap (Op.writes own) = [] := by
    rw [List.filterMap_eq_nil_iff]
    intro op member
    obtain ⟨op, -, rfl⟩ := List.mem_map.mp member
    cases op with
    | read => rfl
    | write b => exact if_neg other
  rw [onSession_eq]
  simp only [wire, setSession, socketOpen, txQueue, set, List.length_set, List.filterMap_append, silent,
    List.append_nil]
  rfl

theorem wire_setSession (here : d.sessions[id]? = some session) (rxbuf : List UInt8) :
    (d.setSession id { session with rxbuf }).wire own = d.wire own := by
  by_cases mine : id = own
  · subst mine
    have known := (List.getElem?_eq_some_iff.mp here).1
    simp only [wire, setSession, socketOpen, txQueue, List.getElem?_set_self known, here, List.length_set]
    rfl
  · simp only [wire, setSession, socketOpen, txQueue, List.getElem?_set_ne mine, List.length_set]
    rfl

theorem Sends.step (sent : Sends own d t) : (d.wire own).Step [] (t.wire own) := by
  obtain ⟨more, known, wire⟩ := sent.wire
  rw [wire]
  exact .sends more fun sending => decide_eq_true (known sending)

theorem step_same (same : t.wire own = d.wire own) : (d.wire own).Step [] (t.wire own) := by
  have nothing : (d.wire own).Step [] ((d.wire own).sends []) := .sends [] fun more => absurd rfl more
  rw [Wire.sends, List.append_nil, List.map_nil, List.append_nil] at nothing
  exact same ▸ nothing

theorem wire_finish {i : Nat} {op : Op} {result : Completion} (here : d.outstanding[i]? = some op)
    (may : d.mayEnd op result = true) :
    (d.wire own).Step (wired own d (.finish i result)) ((d.finish i op result).wire own) := by
  obtain ⟨before, after, split, erased⟩ := EventLoop.split_eraseIdx here
  have posted : (d.finish i op result).ready.filterMap (Task.sends own) =
      d.ready.filterMap (Task.sends own) := by
    rw [finish, List.filterMap_append]
    cases op <;> simp [handlerOf, Task.sends]
  cases writes : op.writes own with
  | none =>
    have silent : wired own d (.finish i result) = [] := by
      cases result with
      | error message => rfl
      | ok data => simp [wired, here, writes]
    rw [silent]
    refine step_same (wire_eq rfl posted ?_ ?_ rfl)
    · rw [finish, List.filterMap_append]
      have none : (handlerOf op result).wrote own = none := by
        cases op with
        | session id op =>
          cases op with
          | read => rfl
          | write b =>
            simp only [Op.writes, ite_eq_right_iff, reduceCtorEq, imp_false] at writes
            exact if_neg writes
        | _ => rfl
      simp [none]
    · rw [finish, erased, split, List.filterMap_append, List.filterMap_append,
        List.filterMap_cons_none writes]
  | some b =>
    obtain rfl : op = .session own (.write b) := by
      cases op with
      | session id op =>
        cases op with
        | read => cases writes
        | write b' =>
          simp only [Op.writes, Option.ite_none_right_eq_some, Option.some.injEq] at writes
          obtain ⟨rfl, rfl⟩ := writes
          rfl
      | _ => cases writes
    have out : wired own d (.finish i result) = if result.isOk then [b.bytes] else [] := by
      cases result with
      | error message => rfl
      | ok data => simp [wired, here, writes, Except.isOk, Except.toBool]
    have writing : (d.wire own).writing =
        before.filterMap (Op.writes own) ++ b :: after.filterMap (Op.writes own) := by
      rw [wire, split, List.filterMap_append, List.filterMap_cons_some writes]
    have after : (d.finish i (.session own (.write b)) result).wire own = { d.wire own with
        writing := before.filterMap (Op.writes own) ++ after.filterMap (Op.writes own)
        ended := (d.wire own).ended ++ [(b, result.isOk)] } := by
      simp only [wire, Wire.mk.injEq]
      refine ⟨rfl, rfl, rfl, posted, ?_, ?_, rfl⟩
      · rw [finish, List.filterMap_append]
        simp [handlerOf, Task.wrote]
      · rw [finish, erased, List.filterMap_append]
    rw [out, after]
    refine .ends result.isOk (fun ok => ?_) writing
    simpa [mayEnd, ok, wire, socketOpen] using may

theorem wire_resume {rest : Rest} (known : ∀ id, rest = .greet id → id < d.sessions.length)
    (handled : d.resume env rest = some t) : (d.wire own).Step [] (t.wire own) := by
  cases rest with
  | boot =>
    simp only [resume] at handled
    split at handled
    next =>
      cases handled
      exact step_same rfl
    next => exact (onLink_sends handled).step
  | greet id =>
    cases handled
    have here := known id rfl
    have hello : Sends own d (d.send id { type := .Hello, payload := packString (text "exn_gsd") }) :=
      sends_send here _
    have greeted := hello.trans (sends_send (d := d.send id _) here
      (d.send id { type := .Hello, payload := packString (text "exn_gsd") }).currentLinkFrame)
    have accepts : ∀ d : App, Sends own d (d.initiate .accept) :=
      fun d => .quiet rfl rfl (wire_eq rfl rfl rfl (by simp [initiate, Op.writes]) rfl)
    exact (greeted.trans (accepts _)).step
  | decode id =>
    simp only [resume] at handled
    split at handled
    next =>
      cases handled
      exact step_same rfl
    next session here =>
      cases decoded : tryDecode session.rxbuf .unset with
      | none => simp [decode, decoded] at handled
      | some result =>
        obtain ⟨found, rxbuf, f⟩ := result
        have set : (d.setSession id { session with rxbuf }).wire own = d.wire own :=
          wire_setSession here rxbuf
        cases found with
        | false =>
          rw [decode_waits decoded] at handled
          cases handled
          refine step_same (Eq.trans ?_ set)
          exact wire_eq rfl rfl rfl (by simp [initiate, Op.writes]) rfl
        | true =>
          rw [decode_found decoded] at handled
          have known := (List.getElem?_eq_some_iff.mp here).1
          simp only [handleFrame] at handled
          split at handled
          next =>
            have framed : Sends own { d.setSession id { session with rxbuf } with rest := some (.decode id) } t :=
              onFrame_sends (by simpa [setSession] using known) handled
            rw [← set]
            exact framed.step
          next =>
            cases handled
            exact step_same set

theorem wire_welcome (d : App) : (d.wire own).Step [] (d.welcome.wire own) := by
  have sessions : d.welcome.sessions = d.sessions ++ [({} : IpcSession)] := rfl
  by_cases last : own = d.sessions.length
  · have unknown : d.sessions[own]? = none := List.getElem?_eq_none (Nat.le_of_eq last.symm)
    have fresh : d.welcome.sessions[own]? = some {} := by
      rw [sessions, last, List.getElem?_concat_length]
    have before : (d.wire own).known = false := by simp [wire, last]
    have after : d.welcome.wire own = { d.wire own with known := true, opened := true } := by
      simp only [wire, socketOpen, txQueue, unknown, fresh, Wire.mk.injEq]
      refine ⟨?_, rfl, rfl, rfl, rfl, rfl, rfl⟩
      simp [sessions, last]
    rw [after]
    exact .accepted before
  · have same : d.welcome.sessions[own]? = d.sessions[own]? := by
      rcases Nat.lt_or_gt_of_ne last with inside | outside
      · rw [sessions, List.getElem?_append_left inside]
      · rw [List.getElem?_eq_none (by rw [sessions, List.length_append]; exact outside),
          List.getElem?_eq_none (Nat.le_of_lt outside)]
    have known : decide (own < d.welcome.sessions.length) = decide (own < d.sessions.length) := by
      rw [decide_eq_decide, sessions, List.length_append, List.length_singleton]
      omega
    refine step_same ?_
    simp only [wire, socketOpen, txQueue, same, known]
    rfl

-- The session while a task is still the first of those that are ready.
def before (w : Wire) (own : Nat) (task : Task) : Wire :=
  { w with
    posted := (task.sends own).toList ++ w.posted
    ended := (task.wrote own).toList ++ w.ended }

theorem wire_before {task : Task} {ready : List Task} (first : d.ready = task :: ready) :
    d.wire own = before (App.wire { d with ready } own) own task := by
  have cons : ∀ {β : Type} (view : Task → Option β), (task :: ready).filterMap view =
      (view task).toList ++ ready.filterMap view := by
    intro β view
    cases seen : view task with
    | none => rw [List.filterMap_cons_none seen]; rfl
    | some x => rw [List.filterMap_cons_some seen]; rfl
  simp only [wire, before, first, cons]
  rfl

theorem queue_eq (here : d.sessions[own]? = some session) : (d.wire own).queue = session.txQueue := by
  simp only [wire, txQueue, here]
  rfl

theorem runSend_step (here : d.sessions[own]? = some session) (b : SharedBytes) :
    Wire.Step (before (d.wire own) own (.send own b)) [] ((d.onSession own (session.runSend b)).wire own) := by
  have opened : (d.wire own).opened = session.sockOpen := socketOpen_eq here
  have queue := queue_eq here
  have first : (before (d.wire own) own (.send own b)).posted = b :: (d.wire own).posted := by
    simp [before, Task.sends]
  rw [wire_onSession here]
  cases sock : session.sockOpen with
  | false =>
    have shut : (before (d.wire own) own (.send own b)).opened = false := opened.trans sock
    have dropped := Wire.Step.dropped shut first
    rw [IpcSession.runSend_closed sock, ← opened, ← queue, List.filterMap_nil, List.append_nil]
    exact dropped
  | true =>
    have live : (before (d.wire own) own (.send own b)).opened = true := opened.trans sock
    have held : ∀ {q : List SharedBytes}, session.txQueue = q → (before (d.wire own) own (.send own b)).queue = q :=
      fun held => queue.trans held
    cases txQueue : session.txQueue with
    | nil =>
      have ran : session.runSend b = { state := { session with txQueue := [b] }, started := [.write b] } := by
        simp [IpcSession.runSend, IpcSession.doWrite, sock, txQueue]
      have begins := Wire.Step.begins live (held txQueue) first
      rw [ran]
      simp only [List.filterMap_cons, List.filterMap_nil, Op.writes, if_true, ← opened]
      exact begins
    | cons q qs =>
      have ran : session.runSend b = { state := { session with txQueue := q :: qs ++ [b] } } := by
        simp [IpcSession.runSend, sock, txQueue]
      have busy : (before (d.wire own) own (.send own b)).queue ≠ [] := by
        rw [held txQueue]
        exact List.cons_ne_nil q qs
      have queued := Wire.Step.queued live busy first
      rw [ran, ← txQueue, ← queue, List.filterMap_nil, List.append_nil]
      simp only [← opened]
      exact queued

theorem onWritten_step (here : d.sessions[own]? = some session) {b : SharedBytes} {result : Completion}
    {e : EventLoop.Effects IpcSession SessionOp SharedBytes} (written : session.onWritten result = some e) :
    Wire.Step (before (d.wire own) own (.session own (.write b) result)) [] ((d.onSession own e).wire own) := by
  have opened : (d.wire own).opened = session.sockOpen := socketOpen_eq here
  have queue := queue_eq here
  have first : (before (d.wire own) own (.session own (.write b) result)).ended =
      (b, result.isOk) :: (d.wire own).ended := by
    simp [before, Task.wrote]
  rw [wire_onSession here]
  cases result with
  | error message =>
    cases written
    have fails := Wire.Step.fails first
    rw [List.filterMap_nil, List.append_nil]
    exact fails
  | ok data =>
    obtain ⟨q, qs, txQueue, rfl⟩ := IpcSession.onWritten_ok data written
    have held : (before (d.wire own) own (.session own (.write b) (.ok data))).queue = q :: qs :=
      queue.trans txQueue
    have pops := Wire.Step.pops first held
    have started : (IpcSession.doWrite { session with txQueue := qs }).filterMap
        (fun op => (Op.session own op).writes own) =
          if (d.wire own).opened then qs.head?.toList else [] := by
      rw [opened]
      cases qs with
      | nil => cases session.sockOpen <;> rfl
      | cons next rest => cases session.sockOpen <;> simp [IpcSession.doWrite, Op.writes]
    rw [started]
    simp only [← opened]
    exact pops

theorem before_foreign (w : Wire) {task : Task} (sends : task.sends own = none)
    (wrote : task.wrote own = none) : before w own task = w := by
  rw [before, sends, wrote]
  rfl

theorem gone_step (gone : d.sessions[own]? = none) (op : SessionOp) (result : Completion) :
    Wire.Step (before (d.wire own) own (.session own op result)) [] (d.wire own) := by
  cases op with
  | read =>
    rw [before_foreign _ rfl rfl]
    exact step_same rfl
  | write b =>
    have unknown : (before (d.wire own) own (.session own (.write b) result)).known = false :=
      decide_eq_false (Nat.not_lt_of_le (List.getElem?_eq_none_iff.mp gone))
    have first : (before (d.wire own) own (.session own (.write b) result)).ended =
        (b, result.isOk) :: (d.wire own).ended := by
      simp [before, Task.wrote]
    exact .forgets unknown first

theorem wire_runTask {task : Task} (handled : d.runTask env task = some t) :
    Wire.Step (before (d.wire own) own task) [] (t.wire own) := by
  cases task with
  | accepted result =>
    rw [before_foreign _ rfl rfl]
    cases result with
    | error message =>
      cases handled
      exact step_same (wire_eq rfl rfl rfl (by simp [initiate, Op.writes]) rfl)
    | ok data =>
      cases handled
      have started : (d.initiate (.session d.sessions.length .read)).wire own = d.wire own :=
        wire_eq rfl rfl rfl (by simp [initiate, Op.writes]) rfl
      have welcomed : (App.wire (d.initiate (.session d.sessions.length .read)) own).Step [] _ :=
        wire_welcome _
      rw [started] at welcomed
      exact welcomed
  | session id op result =>
    simp only [runTask] at handled
    by_cases mine : id = own
    · subst mine
      split at handled
      next gone =>
        cases handled
        exact gone_step gone op result
      next session here =>
        split at handled
        next message =>
          cases handled
          rw [before_foreign _ rfl rfl, wire_onSession here, List.filterMap_nil, List.append_nil]
          exact .closes (decide_eq_true (List.getElem?_eq_some_iff.mp here).1)
        next data =>
          cases handled
          rw [before_foreign _ rfl rfl]
          exact step_same (wire_setSession here (session.rxbuf ++ data))
        next b =>
          obtain ⟨e, written, rfl⟩ := Option.map_eq_some_iff.mp handled
          exact onWritten_step here written
    · have foreign : (Task.session id op result).wrote own = none := by
        cases op with
        | read => rfl
        | write b => exact if_neg mine
      rw [before_foreign _ rfl foreign]
      split at handled
      next =>
        cases handled
        exact step_same rfl
      next session here =>
        split at handled
        next =>
          cases handled
          exact step_same (wire_onSession_other mine _)
        next data =>
          cases handled
          exact step_same (wire_setSession here (session.rxbuf ++ data))
        next =>
          obtain ⟨e, _, rfl⟩ := Option.map_eq_some_iff.mp handled
          exact step_same (wire_onSession_other mine e)
  | send id bytes =>
    simp only [runTask] at handled
    by_cases mine : id = own
    · subst mine
      split at handled
      next gone =>
        cases handled
        have first : (before (d.wire id) id (.send id bytes)).posted = bytes :: (d.wire id).posted := by
          simp [before, Task.sends]
        have shut : (before (d.wire id) id (.send id bytes)).opened = false := socketOpen_absent gone
        exact .dropped shut first
      next session here =>
        cases handled
        exact runSend_step here bytes
    · rw [before_foreign _ (show Task.sends own (.send id bytes) = none from if_neg mine) rfl]
      split at handled
      next =>
        cases handled
        exact step_same rfl
      next session here =>
        cases handled
        exact step_same (wire_onSession_other mine _)
  | link op result =>
    rw [before_foreign _ rfl rfl]
    exact (onLink_sends handled).step
  | transmit bytes =>
    rw [before_foreign _ rfl rfl]
    exact (onLink_sends handled).step

/-- Every step of the daemon is one of each session. -/
theorem wire_step {a : Action} (known : ∀ id, d.greeting = some id → id < d.sessions.length)
    (taken : step env d a = .next t) : (d.wire own).Step (wired own d a) (t.wire own) := by
  cases a with
  | finish i result =>
    obtain ⟨op, here, may, rfl⟩ := step_finish.mp taken
    exact wire_finish here may
  | run =>
    rcases step_run taken with ⟨rest, resumed, handled⟩ | ⟨_, task, ready, first, handled⟩
    · have greets : ∀ id, rest = .greet id → id < d.sessions.length :=
        fun id greet => known id (by simp [greeting, resumed, greet])
      have resting : App.wire { d with rest := none } own = d.wire own := rfl
      have stepped : (App.wire { d with rest := none } own).Step [] (t.wire own) :=
        wire_resume greets handled
      rw [resting] at stepped
      exact stepped
    · rw [wire_before first]
      exact wire_runTask handled

/-- In every run what has been written to a session is the first of what was passed to `send`. -/
theorem carries_run {transport : Transport} {actions : List Action} (own : Nat)
    (ran : run (step env) (initial transport) actions = some d) :
    (d.wire own).Carries (observed (step env) (wired own) (initial transport) actions) ∧ d.FannedOut := by
  have each : ∀ d a t noted, (d.wire own).Carries noted ∧ d.FannedOut → step env d a = .next t →
      (t.wire own).Carries (noted ++ wired own d a) ∧ t.FannedOut := by
    rintro d a t noted ⟨carries, fanned⟩ taken
    exact ⟨carries.step (wire_step fanned.known taken), fannedOut_step fanned taken⟩
  have start : ((initial transport).wire own).Carries [] := .absent rfl rfl
  exact observed_invariant (motive := fun d noted => (d.wire own).Carries noted ∧ d.FannedOut) each actions
    ⟨start, fannedOut_initial transport⟩ ran

end App

end ExnGs.Daemon
