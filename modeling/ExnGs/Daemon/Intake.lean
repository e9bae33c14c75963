import ExnGs.Daemon.Moves

set_option autoImplicit false

-- What one session has sent: the bytes of reads that have ended, those in its buffer, and its frames.
namespace ExnGs.Daemon

open Proto SpacePacket Framer

-- The bytes that a task hands to the session.
def Task.delivered (own : Nat) : Task → Option (List UInt8)
  | .session id .read (.ok data) => if id = own then some data else none
  | _ => none

def Task.Written (own : Nat) : Task → Prop
  | .session id (.write _) _ => id = own
  | _ => False

-- Closures, which handlers post.
def Task.Posted : Task → Prop
  | .send _ _ | .transmit _ => True
  | _ => False

theorem Task.read_of_delivered {own : Nat} {task : Task} {data : List UInt8}
    (delivers : task.delivered own = some data) : task = .session own .read (.ok data) := by
  cases task with
  | session id op result =>
    cases op with
    | write bytes => cases delivers
    | read =>
      cases result with
      | error message => cases delivers
      | ok data' =>
        rw [delivered] at delivers
        split at delivers
        next mine =>
          cases delivers
          rw [mine]
        next => cases delivers
  | _ => cases delivers

theorem Task.Posted.apart {task : Task} (posted : task.Posted) (own : Nat) :
    task.delivered own = none ∧ ¬ task.Written own := by
  cases task with
  | send session bytes => exact ⟨rfl, fun written => written⟩
  | transmit bytes => exact ⟨rfl, fun written => written⟩
  | _ => cases posted

-- Whether the socket of the session is open after a task; `count` is the number of sessions before.
def Task.socketAfter (own count : Nat) (opened : Bool) : Task → Bool
  | .accepted result => opened || (result.isOk && own = count)
  | .session id _ result => if id = own then opened && result.isOk else opened
  | _ => opened

namespace App

def buffer (d : App) (own : Nat) : List UInt8 := (d.sessions[own]?.map IpcSession.rxbuf).getD []

def socketOpen (d : App) (own : Nat) : Bool :=
  (d.sessions[own]?.map IpcSession.sockOpen).getD false

def arriving (d : App) (own : Nat) : List (List UInt8) := d.ready.filterMap (Task.delivered own)

-- The frame that an action takes out of the buffer of the session.
def decodes (d : App) (own : Nat) : Action → Option Frame
  | .finish _ _ => none
  | .run =>
    if d.rest = some (.decode own) then
      match tryDecode (d.buffer own) .unset with
      | some (true, _, f) => some f
      | _ => none
    else none

-- An operation ends, and its handler is ready.
def finish (d : App) (i : Nat) (op : Op) (result : Completion) : App :=
  { d with outstanding := d.outstanding.eraseIdx i, ready := d.ready ++ [handlerOf op result] }

-- What the loop of a session does with a frame, once it is out of the buffer.
def handleFrame (env : Env) (d : App) (id : Nat) (session : IpcSession) (f : Frame) : Option App :=
  let d := { d.setSession id session with rest := some (.decode id) }
  if IpcSession.isRequest f then d.onFrame env f id else some d

structure Posts (d t : App) : Prop where
  sessions : t.sessions = d.sessions
  rest : t.rest = d.rest
  ready : ∃ more, t.ready = d.ready ++ more ∧ ∀ task ∈ more, task.Posted

/-- A step leaves this much in the buffer of the session, and its socket open or not. It neither ends an
operation of the session nor takes up one that has ended. -/
structure Leaves (own : Nat) (rxbuf : List UInt8) (opened : Bool) (d t : App) : Prop where
  buffer : t.buffer own = rxbuf
  socket : t.socketOpen own = opened
  arriving : t.arriving own = d.arriving own
  written : ∀ task ∈ t.ready, task.Written own → task ∈ d.ready
  sessions : d.sessions.length ≤ t.sessions.length

variable {env : Env} {own id : Nat} {d t : App}

theorem Posts.refl (d : App) : d.Posts d := ⟨rfl, rfl, [], by simp, by simp⟩

theorem Posts.trans {d' : App} (first : d.Posts d') (later : d'.Posts t) : d.Posts t := by
  obtain ⟨more, ready, posted⟩ := first.ready
  obtain ⟨more', ready', posted'⟩ := later.ready
  refine ⟨later.sessions.trans first.sessions, later.rest.trans first.rest, more ++ more', ?_, ?_⟩
  · rw [ready', ready, List.append_assoc]
  · intro task member
    rcases List.mem_append.mp member with old | new
    · exact posted task old
    · exact posted' task new

theorem Posts.quiet (sessions : t.sessions = d.sessions) (rest : t.rest = d.rest)
    (ready : t.ready = d.ready) : d.Posts t :=
  ⟨sessions, rest, [], by rw [ready, List.append_nil], by simp⟩

theorem posts_send (d : App) (id : Nat) (f : Frame) : d.Posts (d.send id f) :=
  ⟨rfl, rfl, _, rfl, fun task member => by rw [List.mem_singleton.mp member]; trivial⟩

theorem posts_broadcast (d : App) (f : Frame) : d.Posts (d.broadcast f) := by
  have each : ∀ (ids : List Nat) (d : App),
      d.Posts (ids.foldl (fun d session => d.send session f) d) := by
    intro ids
    induction ids with
    | nil => exact .refl
    | cons id ids ih => exact fun d => (posts_send d id f).trans (ih _)
  have logged : d.Posts (d.log (.broadcast f)) := .quiet rfl rfl rfl
  exact logged.trans (each _ _)

theorem posts_setLink (d : App) (st : LinkState) (detail : Text) :
    d.Posts (d.modifyState fun state => state.setLink st detail).publishLinkState := by
  have set : d.Posts (d.modifyState fun state => state.setLink st detail) := .quiet rfl rfl rfl
  exact set.trans (posts_broadcast _ _)

theorem onPacket_posts {generation : Nat} {bytes : List UInt8}
    (handled : d.onPacket env generation bytes = some t) : d.Posts t := by
  simp only [onPacket, Option.bind_eq_bind, Option.bind_eq_some_iff] at handled
  obtain ⟨decoded, _, handled⟩ := handled
  generalize rxRecord decoded (env.now (d.clock + 1)) bytes = record at handled
  have kept : d.Posts (d.keep generation record) := .quiet rfl rfl rfl
  cases decoded with
  | error message =>
    cases handled
    have counted : d.Posts ((d.keep generation record).modifyState .onDecodeError) :=
      kept.trans (.quiet rfl rfl rfl)
    exact counted.trans (posts_broadcast _ _)
  | ok m =>
    cases handled
    exact kept.trans (posts_broadcast _ _)

theorem onLinkEvent_posts {event : LinkEvent} (handled : d.onLinkEvent env event = some t) :
    d.Posts t := by
  have logged : d.Posts (d.log (.link event)) := .quiet rfl rfl rfl
  cases event with
  | onState opened detail =>
    cases handled
    exact logged.trans (posts_setLink _ _ _)
  | onError err =>
    cases handled
    exact logged.trans (posts_setLink _ _ _)
  | onBytes generation data =>
    have pushed : d.Posts { d.log (.link (.onBytes generation data)) with
        framer := (pushBytes env.lib.declaredPacketSize d.framer data).1 } := .quiet rfl rfl rfl
    exact pushed.trans (Machine.foldlM_related Posts.refl Posts.trans
      (fun _ _ _ handled => onPacket_posts handled) _ handled)
  | post packet =>
    cases handled
    exact ⟨rfl, rfl, _, rfl, fun task member => by rw [List.mem_singleton.mp member]; trivial⟩
  | _ =>
    cases handled
    exact logged.trans (.quiet rfl rfl rfl)

theorem onLink_posts {turn : SerialLink × List LinkEvent} (handled : d.onLink env turn = some t) :
    d.Posts t := by
  have begun : d.Posts { d with link := turn.1 } := .quiet rfl rfl rfl
  exact begun.trans (Machine.foldlM_related Posts.refl Posts.trans
    (fun _ _ _ handled => onLinkEvent_posts handled) _ handled)

theorem onFrame_posts {f : Frame} (handled : d.onFrame env f id = some t) : d.Posts t := by
  have ticked : d.Posts { d with clock := d.clock + 1 } := .quiet rfl rfl rfl
  cases handled_of_onFrame handled with
  | rejected message _ _ => exact ticked.trans (posts_send _ _ _)
  | @sent m d' _ _ _ posted =>
    have counted : d'.Posts (d'.modifyState fun state => state.onTx f.payload.length) :=
      .quiet rfl rfl rfl
    exact ticked.trans ((onLink_posts posted).trans (counted.trans (posts_broadcast _ _)))
  | answered _ _ _ => exact posts_send _ _ _
  | started _ started => exact onLink_posts started
  | stopped _ stopped => exact onLink_posts stopped
  | restarted _ stopped started => exact (onLink_posts stopped).trans (onLink_posts started)

theorem buffer_eq {session : IpcSession} (here : d.sessions[own]? = some session) :
    d.buffer own = session.rxbuf := by
  rw [buffer, here]
  rfl

theorem buffer_gone (gone : d.sessions[own]? = none) : d.buffer own = [] := by
  rw [buffer, gone]
  rfl

-- There is nothing to decode for a session that has never been.
theorem waiting_gone (gone : d.sessions[own]? = none) : frames.cut (d.buffer own) = none := by
  rw [buffer_gone gone]
  rfl

theorem socketOpen_eq {session : IpcSession} (here : d.sessions[own]? = some session) :
    d.socketOpen own = session.sockOpen := by
  rw [socketOpen, here]
  rfl

theorem socketOpen_absent (gone : d.sessions[own]? = none) : d.socketOpen own = false := by
  rw [socketOpen, gone]
  rfl

theorem Leaves.quiet (sessions : t.sessions = d.sessions) (ready : t.ready = d.ready) :
    Leaves own (d.buffer own) (d.socketOpen own) d t where
  buffer := by rw [App.buffer, App.buffer, sessions]
  socket := by rw [App.socketOpen, App.socketOpen, sessions]
  arriving := by rw [App.arriving, App.arriving, ready]
  written := fun task member _ => ready ▸ member
  sessions := Nat.le_of_eq (by rw [sessions])

theorem Posts.leaves (posts : d.Posts t) : Leaves own (d.buffer own) (d.socketOpen own) d t := by
  obtain ⟨more, ready, posted⟩ := posts.ready
  have undelivered : more.filterMap (Task.delivered own) = [] := by
    rw [List.filterMap_eq_nil_iff]
    exact fun task member => ((posted task member).apart own).1
  have quiet : Leaves own (d.buffer own) (d.socketOpen own) d { d with sessions := t.sessions } :=
    .quiet posts.sessions rfl
  refine { quiet with arriving := ?_, written := ?_ }
  · rw [App.arriving, ready, List.filterMap_append, undelivered, List.append_nil]
    rfl
  · intro task member written
    rw [ready] at member
    rcases List.mem_append.mp member with old | new
    · exact old
    · exact absurd written ((posted task new).apart own).2

theorem Leaves.posts {rxbuf : List UInt8} {opened : Bool} {d' : App}
    (first : Leaves own rxbuf opened d d') (posts : d'.Posts t) : Leaves own rxbuf opened d t := by
  have later : Leaves own (d'.buffer own) (d'.socketOpen own) d' t := posts.leaves
  exact ⟨later.buffer.trans first.buffer, later.socket.trans first.socket,
    later.arriving.trans first.arriving,
    fun task member written => first.written task (later.written task member written) written,
    Nat.le_trans first.sessions later.sessions⟩

theorem setSession_other_leaves (other : id ≠ own) (session : IpcSession) :
    Leaves own (d.buffer own) (d.socketOpen own) d (d.setSession id session) where
  buffer := by rw [App.buffer, App.setSession, List.getElem?_set_ne other]; rfl
  socket := by rw [App.socketOpen, App.setSession, List.getElem?_set_ne other]; rfl
  arriving := rfl
  written := fun _ member _ => member
  sessions := by rw [App.setSession, List.length_set]

theorem setSession_own_leaves (known : own < d.sessions.length) (session : IpcSession) :
    Leaves own session.rxbuf session.sockOpen d (d.setSession own session) := by
  have set : (d.setSession own session).sessions[own]? = some session := by
    rw [App.setSession, List.getElem?_set_self known]
  refine ⟨buffer_eq set, socketOpen_eq set, rfl, fun _ member _ => member, ?_⟩
  rw [App.setSession, List.length_set]

theorem onWritten_keeps {session : IpcSession} {result : Completion}
    {e : EventLoop.Effects IpcSession SessionOp SharedBytes}
    (written : session.onWritten result = some e) :
    e.state.rxbuf = session.rxbuf ∧ e.state.sockOpen = (session.sockOpen && result.isOk) := by
  cases result with
  | error message =>
    cases written
    exact ⟨rfl, (Bool.and_false _).symm⟩
  | ok data =>
    obtain ⟨bytes, rest, _, rfl⟩ := IpcSession.onWritten_ok data written
    exact ⟨rfl, (Bool.and_true _).symm⟩

theorem runSend_keeps (session : IpcSession) (bytes : SharedBytes) :
    (session.runSend bytes).state.rxbuf = session.rxbuf ∧
      (session.runSend bytes).state.sockOpen = session.sockOpen := by
  simp only [IpcSession.runSend]
  split
  next => exact ⟨rfl, rfl⟩
  next => exact ⟨rfl, rfl⟩

theorem onSession_leaves {session : IpcSession} {stays : Bool}
    {e : EventLoop.Effects IpcSession SessionOp SharedBytes} (here : d.sessions[id]? = some session)
    (rxbuf : e.state.rxbuf = session.rxbuf)
    (sockOpen : e.state.sockOpen = (session.sockOpen && stays)) :
    Leaves own (d.buffer own) (if id = own then d.socketOpen own && stays else d.socketOpen own) d
      (d.onSession id e) := by
  rw [onSession_eq]
  by_cases mine : id = own
  · subst mine
    have set := setSession_own_leaves (List.getElem?_eq_some_iff.mp here).1 e.state
    rw [if_pos rfl, buffer_eq here, socketOpen_eq here, ← rxbuf, ← sockOpen]
    exact { set with }
  · have set : Leaves own (d.buffer own) (d.socketOpen own) d (d.setSession id e.state) :=
      setSession_other_leaves mine _
    rw [if_neg mine]
    exact { set with }

theorem welcome_leaves (d : App) :
    Leaves own (d.buffer own) (d.socketOpen own || own = d.sessions.length) d d.welcome := by
  have sessions : d.welcome.sessions[own]? =
      if own = d.sessions.length then some {} else d.sessions[own]? := by
    rw [welcome]
    split
    next last => rw [last, List.getElem?_concat_length]
    next other =>
      rcases Nat.lt_or_gt_of_ne other with inside | outside
      · exact List.getElem?_append_left inside
      · have beyond : (d.sessions ++ [({} : IpcSession)]).length ≤ own := by
          rw [List.length_append]
          exact outside
        rw [List.getElem?_eq_none beyond, List.getElem?_eq_none (Nat.le_of_lt outside)]
  refine ⟨?_, ?_, rfl, fun _ member _ => member, by simp [welcome]⟩
  · rw [App.buffer, App.buffer, sessions]
    split
    next last =>
      rw [List.getElem?_eq_none (Nat.le_of_eq last.symm)]
      rfl
    next => rfl
  · rw [App.socketOpen, App.socketOpen, sessions]
    split
    next last => simp [last]
    next other => simp [other]

theorem runTask_leaves {task : Task} (undelivered : task.delivered own = none)
    (handled : d.runTask env task = some t) :
    Leaves own (d.buffer own) (task.socketAfter own d.sessions.length (d.socketOpen own)) d t := by
  cases task with
  | accepted result =>
    cases result with
    | error message =>
      cases handled
      simp only [Task.socketAfter, Except.isOk, Except.toBool, Bool.false_and, Bool.or_false]
      exact .quiet rfl rfl
    | ok data =>
      cases handled
      have welcomed : ∀ started : App, Leaves own (started.buffer own)
          (started.socketOpen own || own = started.sessions.length) started started.welcome :=
        welcome_leaves
      simp only [Task.socketAfter, Except.isOk, Except.toBool, Bool.true_and]
      exact { welcomed (d.initiate (.session d.sessions.length .read)) with }
  | session id op result =>
    simp only [runTask] at handled
    rw [Task.socketAfter]
    split at handled
    next gone =>
      cases handled
      split
      next mine =>
        rw [socketOpen_absent (mine ▸ gone), Bool.false_and]
        exact socketOpen_absent (mine ▸ gone) ▸ .quiet rfl rfl
      next => exact .quiet rfl rfl
    next session here =>
      split at handled
      next message =>
        cases handled
        exact onSession_leaves here rfl (Bool.and_false _).symm
      next data =>
        cases handled
        have other : id ≠ own := by
          intro mine
          rw [Task.delivered, if_pos mine] at undelivered
          cases undelivered
        have set : Leaves own (d.buffer own) (d.socketOpen own) d
            (d.setSession id { session with rxbuf := session.rxbuf ++ data }) :=
          setSession_other_leaves other _
        rw [if_neg other]
        exact { set with }
      next bytes =>
        obtain ⟨e, written, rfl⟩ := Option.map_eq_some_iff.mp handled
        have kept := onWritten_keeps written
        exact onSession_leaves here kept.1 kept.2
  | send id bytes =>
    simp only [runTask] at handled
    split at handled
    next =>
      cases handled
      exact .quiet rfl rfl
    next session here =>
      cases handled
      have kept := runSend_keeps session bytes
      have ran : Leaves own (d.buffer own)
          (if id = own then d.socketOpen own && true else d.socketOpen own) d
            (d.onSession id (session.runSend bytes)) :=
        onSession_leaves here kept.1 (kept.2.trans (Bool.and_true _).symm)
      rw [Bool.and_true, ite_self] at ran
      exact ran
  | link op result => exact (onLink_posts handled).leaves
  | transmit bytes => exact (onLink_posts handled).leaves

theorem runRead_leaves {data : List UInt8} (known : own < d.sessions.length)
    (handled : d.runTask env (.session own .read (.ok data)) = some t) :
    Leaves own (d.buffer own ++ data) (d.socketOpen own) d t := by
  have here := List.getElem?_eq_getElem known
  simp only [runTask, here] at handled
  cases handled
  have set := setSession_own_leaves known
    { d.sessions[own] with rxbuf := d.sessions[own].rxbuf ++ data }
  rw [buffer_eq here, socketOpen_eq here]
  exact { set with }

theorem decode_found {session : IpcSession} {rxbuf : List UInt8} {f : Frame}
    (found : tryDecode session.rxbuf .unset = some (true, rxbuf, f)) :
    d.decode env id session = d.handleFrame env id { session with rxbuf } f := by
  simp only [decode, found, Option.bind_eq_bind, Option.bind_some, Bool.true_eq_false, if_false,
    handleFrame]
  rfl

theorem decode_waits {session : IpcSession} {rxbuf : List UInt8} {f : Frame}
    (waits : tryDecode session.rxbuf .unset = some (false, rxbuf, f)) :
    d.decode env id session =
      some ((d.setSession id { session with rxbuf }).initiate (.session id .read)) := by
  simp only [decode, waits, Option.bind_eq_bind, Option.bind_some, if_true]
  rfl

theorem handleFrame_posts {session : IpcSession} {f : Frame}
    (handled : d.handleFrame env id session f = some t) :
    Posts { d.setSession id session with rest := some (.decode id) } t := by
  simp only [handleFrame] at handled
  split at handled
  next => exact onFrame_posts handled
  next =>
    cases handled
    exact .refl _

theorem handleFrame_leaves {session : IpcSession} {f : Frame} (known : own < d.sessions.length)
    (handled : d.handleFrame env own session f = some t) :
    Leaves own session.rxbuf session.sockOpen d t := by
  have turned : Leaves own session.rxbuf session.sockOpen d
      { d.setSession own session with rest := some (.decode own) } :=
    { setSession_own_leaves known session with }
  exact turned.posts (handleFrame_posts handled)

theorem resume_leaves {rest : Rest} (foreign : rest ≠ .decode own)
    (handled : d.resume env rest = some t) :
    Leaves own (d.buffer own) (d.socketOpen own) d t := by
  cases rest with
  | boot =>
    simp only [resume] at handled
    split at handled
    next =>
      cases handled
      exact .quiet rfl rfl
    next => exact (onLink_posts handled).leaves
  | greet id =>
    cases handled
    have greeted : d.Posts ((d.send id { type := .Hello, payload := packString (text "exn_gsd") }).send
        id (d.send id { type := .Hello, payload := packString (text "exn_gsd") }).currentLinkFrame) :=
      (posts_send _ _ _).trans (posts_send _ _ _)
    exact { greeted.leaves with }
  | decode id =>
    have other : id ≠ own := fun same => foreign (by rw [same])
    simp only [resume] at handled
    split at handled
    next =>
      cases handled
      exact .quiet rfl rfl
    next session _ =>
      cases decoded : tryDecode session.rxbuf .unset with
      | none => simp [decode, decoded] at handled
      | some result =>
        obtain ⟨found, rxbuf, f⟩ := result
        have set : Leaves own (d.buffer own) (d.socketOpen own) d
            (d.setSession id { session with rxbuf }) := setSession_other_leaves other _
        cases found with
        | false =>
          rw [decode_waits decoded] at handled
          cases handled
          exact { set with }
        | true =>
          rw [decode_found decoded] at handled
          have turned : Leaves own (d.buffer own) (d.socketOpen own) d
              { d.setSession id { session with rxbuf } with rest := some (.decode id) } :=
            { set with }
          exact turned.posts (handleFrame_posts handled)

theorem arriving_cons {task : Task} {ready : List Task} {data : List UInt8}
    (first : d.ready = task :: ready) (delivers : task.delivered own = some data) :
    d.arriving own = data :: App.arriving { d with ready } own := by
  rw [App.arriving, first, List.filterMap_cons_some delivers]
  rfl

theorem known_of_arriving {data : List UInt8} {later : List (List UInt8)}
    (absent : d.sessions.length ≤ own → d.arriving own = [])
    (arriving : d.arriving own = data :: later) : own < d.sessions.length := by
  by_contra outside
  have none := absent (Nat.le_of_not_lt outside)
  rw [arriving] at none
  cases none

theorem known_of_socketOpen (opened : d.socketOpen own = true) : own < d.sessions.length := by
  by_contra outside
  rw [socketOpen_absent (List.getElem?_eq_none (Nat.le_of_not_lt outside))] at opened
  cases opened

-- Only a socket that is open delivers anything.
theorem socketOpen_of_mayEnd {op : Op} {result : Completion} {data : List UInt8}
    (delivers : (handlerOf op result).delivered own = some data)
    (may : d.mayEnd op result = true) : d.socketOpen own = true := by
  have read := Task.read_of_delivered delivers
  cases op with
  | session id op =>
    cases read
    exact may
  | _ => cases read

theorem finish_arriving (d : App) (i : Nat) (op : Op) (result : Completion) :
    (d.finish i op result).arriving own =
      d.arriving own ++ ((handlerOf op result).delivered own).toList := by
  rw [App.arriving, finish, List.filterMap_append, List.filterMap_cons]
  cases (handlerOf op result).delivered own with
  | none => rfl
  | some data => rfl

theorem finish_leaves {i : Nat} {op : Op} {result : Completion}
    (undelivered : (handlerOf op result).delivered own = none)
    (unwritten : ¬ (handlerOf op result).Written own) :
    Leaves own (d.buffer own) (d.socketOpen own) d (d.finish i op result) where
  buffer := rfl
  socket := rfl
  arriving := by rw [finish_arriving, undelivered, Option.toList_none, List.append_nil]
  written := by
    intro task member written
    rcases List.mem_append.mp member with old | new
    · exact old
    · rw [List.mem_singleton.mp new] at written
      exact absurd written unwritten
  sessions := Nat.le_refl _

theorem decodes_foreign (foreign : d.rest ≠ some (.decode own)) (a : Action) :
    d.decodes own a = none := by
  cases a with
  | finish i result => rfl
  | run => exact if_neg foreign

theorem decodes_waiting (waiting : frames.cut (d.buffer own) = none) (a : Action) :
    d.decodes own a = none := by
  cases a with
  | finish i result => rfl
  | run =>
    rw [decodes]
    split
    next =>
      split
      next decoded =>
        rcases tryDecode_cases decoded with ⟨_, size, found, _⟩ | ⟨stops, _⟩
        · rw [waiting] at found
          cases found
        · cases stops
      next => rfl
    next => rfl

theorem decodes_found {f : Frame} {size : Nat} (resumed : d.rest = some (.decode own))
    (found : frames.cut (d.buffer own) = some (f, size)) : d.decodes own .run = some f := by
  rw [decodes, if_pos resumed, (tryDecode_cut found .unset).1]

theorem step_finish {i : Nat} {result : Completion} :
    d.step env (.finish i result) = .next t ↔
      ∃ op, d.outstanding[i]? = some op ∧ d.mayEnd op result = true ∧ t = d.finish i op result := by
  rw [step]
  constructor
  · intro taken
    split at taken
    next => cases taken
    next op here =>
      split at taken
      next may =>
        cases taken
        exact ⟨op, here, may, rfl⟩
      next => cases taken
  · rintro ⟨op, here, may, rfl⟩
    rw [here]
    simp only [may, if_true]
    rfl

theorem step_resumed {rest : Rest} (resumed : d.rest = some rest)
    (handled : { d with rest := none }.resume env rest = some t) : d.step env .run = .next t := by
  simp only [step, resumed, handled]
  rfl

theorem step_task {task : Task} {ready : List Task} (idle : d.rest = none)
    (first : d.ready = task :: ready) (handled : { d with ready }.runTask env task = some t) :
    d.step env .run = .next t := by
  simp only [step]
  split
  next rest resumed =>
    rw [idle] at resumed
    cases resumed
  next task' ready' _ here =>
    rw [first] at here
    cases here
    rw [handled]
    rfl
  next _ empty =>
    rw [first] at empty
    cases empty

theorem step_run (taken : d.step env .run = .next t) :
    (∃ rest, d.rest = some rest ∧ { d with rest := none }.resume env rest = some t) ∨
      d.rest = none ∧ ∃ task ready, d.ready = task :: ready ∧
        { d with ready }.runTask env task = some t := by
  simp only [step] at taken
  split at taken
  next rest resumed => exact .inl ⟨rest, resumed, Machine.outcome_eq_next taken⟩
  next task ready idle first =>
    exact .inr ⟨idle, task, ready, first, Machine.outcome_eq_next taken⟩
  next => cases taken

end App

end ExnGs.Daemon
