import ExnGs.Daemon.LinkLoop
import ExnGs.Daemon.Shadows
import ExnGs.GsdctlReplies

set_option autoImplicit false

-- What the other sessions, the link and the store know of the frames of one session that only ask.
namespace ExnGs.Daemon

open Proto SpacePacket Framer Machine Thinning

namespace App

def called (env : Env) (d : App) (a : Action) : List LinkCall :=
  match d.request a with
  | some (_, f) => d.calls env f
  | none =>
    if a = .run ∧ d.rest = some .boot ∧ d.link.port ≠ [] then
      [.start (env.device (d.link.generation + 1))]
    else []

/-- A frame that asks for nothing but an answer: a packet that is rejected, a command that cannot be
unpacked, `CONNECT` while the link is open, any other command that neither opens nor closes the link,
and a frame that is no request. -/
def inert (env : Env) (d : App) (f : Frame) : Bool :=
  if IpcSession.isRequest f = false then true
  else if f.type = .PacketSend then !d.accepts env f
  else
    match unpackString f.payload [] with
    | some (true, command) =>
      let command := uppercase command
      command ≠ text "DISCONNECT" && command ≠ text "RECONNECT" &&
        (command ≠ text "CONNECT" || d.link.opened)
    | some (false, _) => true
    | none => false

-- The handler or closure that an action makes ready.
def ended (d : App) : Action → Option Task
  | .finish i result => d.outstanding[i]?.map fun op => handlerOf op result
  | .run => none

variable {env : Env} {own id : Nat} {d t : App}

theorem start_call (device : Nat → SerialOpen) (link : SerialLink) :
    link.start device = link.call (.start (device (link.generation + 1))) := rfl

-- The link is left as these calls leave it.
theorem onFrame_calls {f : Frame} (handled : d.onFrame env f id = some t) :
    t.link = (d.calls env f).foldl (fun link call => (link.call call).1) d.link := by
  cases handled_of_onFrame handled with
  | rejected message _ calls =>
    rw [calls]
    rfl
  | sent calls _ _ posted =>
    have link := (onLink_keeps posted).1
    rw [calls, broadcast_link]
    exact link
  | answered _ calls _ =>
    rw [calls]
    rfl
  | started calls started =>
    rw [calls]
    exact (onLink_keeps started).1
  | stopped calls stopped =>
    rw [calls]
    exact (onLink_keeps stopped).1
  | restarted calls stopped started =>
    rw [calls, (onLink_keeps started).1, (onLink_keeps stopped).1]
    rfl

theorem inert_calls {f : Frame} (asks : IpcSession.isRequest f = true)
    (inert : d.inert env f = true) : d.calls env f = [] := by
  rw [App.inert, if_neg (by simp [asks])] at inert
  rw [calls]
  split
  next type =>
    rw [if_pos type] at inert
    have rejects : d.accepts env f = false := by simpa using inert
    rw [rejects]
    rfl
  next other =>
    rw [if_neg other] at inert
    split at inert
    next command unpacked =>
      simp only [ne_eq, Bool.and_eq_true, Bool.or_eq_true, decide_eq_true_eq] at inert
      obtain ⟨⟨noDisconnect, noReconnect⟩, connects⟩ := inert
      simp only [unpacked]
      rw [if_neg noDisconnect, if_neg noReconnect]
      split
      next connect => rw [if_pos (connects.resolve_left (absurd connect))]
      next => rfl
    next => simp only [*]
    next => cases inert

-- An inert request is answered, and nothing else happens.
theorem onFrame_inert {f : Frame} (asks : IpcSession.isRequest f = true)
    (inert : d.inert env f = true) (handled : d.onFrame env f id = some t) :
    ∃ g clock, t = { d with clock }.send id g := by
  have uncalled := inert_calls asks inert
  cases handled_of_onFrame handled with
  | rejected message _ _ => exact ⟨_, _, rfl⟩
  | answered _ _ _ => exact ⟨_, d.clock, rfl⟩
  | sent calls | started calls | stopped calls | restarted calls =>
    cases uncalled.symm.trans calls

-- Only the session sees what becomes of an inert frame.
theorem handleFrame_inert {session : IpcSession} {f : Frame} (inert : d.inert env f = true)
    (handled : d.handleFrame env own session f = some t) :
    App.Alike own { d with rest := some (.decode own) } t ∧
      (IpcSession.isRequest f = true → d.calls env f = []) := by
  let turned := { d.setSession own session with rest := some (.decode own) }
  have alike : App.Alike own { d with rest := some (.decode own) } turned :=
    { alike_setSession_own d session with rest := rfl }
  simp only [handleFrame] at handled
  split at handled
  next asks =>
    have inert : turned.inert env f = true := inert
    obtain ⟨g, clock, rfl⟩ := onFrame_inert asks inert handled
    exact ⟨alike.trans { alike_send_own { turned with clock } g with },
      fun _ => inert_calls asks inert⟩
  next silent =>
    cases handled
    exact ⟨alike, fun asks => absurd asks silent⟩

theorem Alike.accepts (alike : d.Alike own t) (f : Frame) : t.accepts env f = d.accepts env f := by
  have stamped := decodeMeta_stamped env.lib (env.now d.clock) (env.now t.clock) f.payload
  rw [App.accepts, App.accepts, alike.link, stamped]
  cases decodeMeta env.lib (env.now d.clock) f.payload with
  | none => rfl
  | some decoded =>
    cases decoded with
    | error message => rfl
    | ok m => rfl

theorem Alike.calls (alike : d.Alike own t) (f : Frame) : t.calls env f = d.calls env f := by
  rw [App.calls, App.calls, alike.accepts, alike.link]

theorem Alike.request (alike : d.Alike own t) (foreign : d.rest ≠ some (.decode own)) :
    t.request .run = d.request .run := by
  simp only [App.request, alike.rest]
  split
  next id resumed =>
    have other : id ≠ own := fun same => foreign (by rw [resumed, same])
    rcases alike.lookup id with ⟨gone, gone'⟩ | ⟨session, session', here, here', same⟩
    · rw [gone, gone']
    · have rxbuf : session'.outline.rxbuf = session.outline.rxbuf := by rw [same other]
      have rxbuf : session'.rxbuf = session.rxbuf := rxbuf
      simp only [here, here', Option.bind_eq_bind, Option.bind_some, rxbuf]
  next => rfl

theorem Alike.called (alike : d.Alike own t) (foreign : d.rest ≠ some (.decode own)) :
    t.called env .run = d.called env .run := by
  rw [App.called, App.called, alike.request foreign, alike.rest, alike.link]
  cases d.request .run with
  | none => rfl
  | some asked => exact alike.calls asked.2

theorem request_decodes (resumed : d.rest = some (.decode own)) :
    d.request .run =
      (d.decodes own .run).bind fun f => if IpcSession.isRequest f then some (own, f) else none := by
  rw [decodes, if_pos resumed, buffer]
  simp only [request, resumed]
  cases d.sessions[own]? with
  | none => rfl
  | some session =>
    simp only [Option.bind_eq_bind, Option.bind_some, Option.map_some, Option.getD_some]
    cases tryDecode session.rxbuf .unset with
    | none => rfl
    | some result =>
      obtain ⟨found, rxbuf, f⟩ := result
      cases found with
      | false => rfl
      | true => simp only [Option.bind_some, Bool.true_and]

theorem called_foreign (foreign : d.rest ≠ some .boot) (silent : d.request .run = none) :
    d.called env .run = [] := by
  rw [called, silent]
  simp [foreign]

-- The calls of what is resumed leave the link as it is then; a task makes none of them.
theorem resume_calls {rest : Rest} (resumed : d.rest = some rest)
    (handled : { d with rest := none }.resume env rest = some t) :
    t.link = (d.called env .run).foldl (fun link call => (link.call call).1) d.link := by
  cases rest with
  | boot =>
    have silent : d.request .run = none := by simp [request, resumed]
    rw [called, silent]
    simp only [App.resume] at handled
    split at handled
    next portless =>
      cases handled
      simp [portless]
    next port =>
      rw [(onLink_keeps handled).1]
      simp [resumed, port, start_call]
  | greet id =>
    cases handled
    rw [called_foreign (by simp [resumed]) (by simp [request, resumed])]
    rfl
  | decode id =>
    have unstarted : d.rest ≠ some .boot := by simp [resumed]
    have quiet : d.decodes id .run = none → d.called env .run = [] := by
      intro waits
      exact called_foreign unstarted (by rw [request_decodes resumed, waits, Option.bind_none])
    cases turned_of_resume handled with
    | expired gone =>
      have missing : d.sessions[id]? = none := gone
      rw [quiet (decodes_waiting (waiting_gone missing) _)]
      rfl
    | @waits session here waiting _ =>
      have buffer : d.buffer id = session.rxbuf := buffer_eq here
      rw [quiet (decodes_waiting (by rw [buffer]; exact waiting) _)]
      rfl
    | @found session f size _ here found handled =>
      have buffer : d.buffer id = session.rxbuf := buffer_eq here
      have decodes := decodes_found resumed (by rw [buffer]; exact found)
      simp only [handleFrame] at handled
      split at handled
      next asks =>
        rw [onFrame_calls handled, called, request_decodes resumed, decodes, Option.bind_some,
          if_pos asks]
        rfl
      next silent =>
        cases handled
        rw [called_foreign unstarted (by simp [request_decodes resumed, decodes, silent])]
        rfl

theorem Alike.called_own (alike : d.Alike own t) (resumed : d.rest = some (.decode own))
    (same : t.decodes own .run = d.decodes own .run) : t.called env .run = d.called env .run := by
  have requests := request_decodes resumed
  rw [← same, ← request_decodes (alike.rest.trans resumed)] at requests
  rw [App.called, App.called, requests, alike.rest, alike.link]
  cases t.request .run with
  | none => rfl
  | some asked => exact alike.calls asked.2

theorem sentTo_seen (other : id ≠ own) (events : List Event) :
    (events.filterMap (Event.seen own)).flatMap (Event.sentTo id) =
      (events.flatMap (Event.sentTo id)).map Frame.timeless := by
  induction events with
  | nil => rfl
  | cons event events ih =>
    rw [List.flatMap_cons, List.map_append, ← ih]
    cases event with
    | sent session f =>
      by_cases mine : session = own
      · have elsewhere : session ≠ id := by
          rw [mine]
          exact Ne.symm other
        have hidden : (Event.sent session f).seen own = none := if_pos mine
        rw [List.filterMap_cons_none hidden, Event.sentTo, if_neg elsewhere]
        rfl
      · have seen : (Event.sent session f).seen own = some (.sent session f.timeless) := if_neg mine
        rw [List.filterMap_cons_some seen, List.flatMap_cons, Event.sentTo, Event.sentTo]
        split
        next => rfl
        next => rfl
    | _ => rfl

-- What the session has sent is decoded, in its buffer, or arriving.
theorem step_bytes {a : Action} (absent : d.sessions.length ≤ own → d.arriving own = [])
    (taken : d.step env a = .next t) :
    d.buffer own ++ (d.arriving own).flatten ++ ((d.ended a).bind (Task.delivered own)).getD [] =
        encodeAll (d.decodes own a).toList ++ (t.buffer own ++ (t.arriving own).flatten) ∧
      (t.sessions.length ≤ own → t.arriving own = []) := by
  cases a with
  | finish i result =>
    obtain ⟨op, here, may, rfl⟩ := step_finish.mp taken
    have arriving : (d.finish i op result).arriving own = _ := finish_arriving d i op result
    rw [ended, here, Option.map_some, Option.bind_some, arriving]
    cases delivers : (handlerOf op result).delivered own with
    | none =>
      rw [Option.toList_none, List.append_nil, Option.getD_none, List.append_nil]
      exact ⟨rfl, absent⟩
    | some data =>
      have known := known_of_socketOpen (socketOpen_of_mayEnd delivers may)
      rw [Option.toList_some, List.flatten_append, List.flatten_singleton, Option.getD_some,
        List.append_assoc]
      exact ⟨rfl, fun outside => absurd known (Nat.not_lt.mpr outside)⟩
  | run =>
    have silent : ((d.ended .run).bind (Task.delivered own)).getD [] = [] := rfl
    rw [silent, List.append_nil]
    have same : ∀ {opened}, d.decodes own .run = none → Leaves own (d.buffer own) opened d t →
        d.buffer own ++ (d.arriving own).flatten =
            encodeAll (d.decodes own .run).toList ++ (t.buffer own ++ (t.arriving own).flatten) ∧
          (t.sessions.length ≤ own → t.arriving own = []) := by
      intro opened none left
      rw [none, left.buffer, left.arriving]
      exact ⟨rfl, fun outside => absent (Nat.le_trans left.sessions outside)⟩
    rcases step_run taken with ⟨rest, resumed, handled⟩ | ⟨idle, task, ready, first, handled⟩
    · by_cases mine : rest = .decode own
      · subst mine
        cases turned_of_resume handled with
        | expired gone =>
          have missing : d.sessions[own]? = none := gone
          exact same (decodes_waiting (waiting_gone missing) _) (.quiet rfl rfl)
        | @waits session here waiting _ =>
          have known := (List.getElem?_eq_some_iff.mp here).1
          have left := setSession_own_leaves (d := { d with rest := none }) known session
          have buffer : d.buffer own = session.rxbuf := buffer_eq here
          rw [← buffer] at left waiting
          exact same (decodes_waiting waiting _) { left with }
        | @found session f size _ here found handled =>
          have left := handleFrame_leaves (List.getElem?_eq_some_iff.mp here).1 handled
          have buffer : d.buffer own = session.rxbuf := buffer_eq here
          have arriving : t.arriving own = d.arriving own := left.arriving
          rw [decodes_found resumed (buffer ▸ found), left.buffer, arriving, buffer]
          refine ⟨?_, fun outside => arriving ▸ absent (Nat.le_trans left.sessions outside)⟩
          rw [Option.toList_some, encodeAll, List.flatMap_singleton, (tryDecode_cut found .unset).2,
            ← List.append_assoc, List.take_append_drop]
      · have foreign : d.rest ≠ some (.decode own) := by
          rw [resumed]
          exact fun same => mine (Option.some.inj same)
        exact same (decodes_foreign foreign _) { resume_leaves mine handled with }
    · have foreign : d.rest ≠ some (.decode own) := by
        rw [idle]
        exact fun same => by cases same
      cases delivers : task.delivered own with
      | none =>
        exact same (decodes_foreign foreign _) ((runTask_leaves delivers handled).taken first delivers)
      | some data =>
        have arriving := arriving_cons first delivers
        have known := known_of_arriving absent arriving
        obtain rfl := Task.read_of_delivered delivers
        have left := runRead_leaves (d := { d with ready }) known handled
        rw [decodes_foreign foreign, left.buffer, left.arriving, arriving]
        refine ⟨?_, fun outside => absurd known (Nat.not_lt.mpr (Nat.le_trans left.sessions outside))⟩
        rw [List.flatten_cons, ← List.append_assoc]
        rfl

end App

/-- The daemon, and what has happened around session `own`. No code reads the history: the frames that
the session decoded, the bytes that its reads delivered, the operations that ended as they show to
others, and the calls of the link. -/
structure Trial where
  daemon : App
  decoded : List Frame := []
  input : List UInt8 := []
  world : List Task := []
  calls : List LinkCall := []

namespace Trial

def advance (env : Env) (own : Nat) (s : Trial) (a : App.Action) (t : App) : Trial where
  daemon := t
  decoded := s.decoded ++ (s.daemon.decodes own a).toList
  input := s.input ++ ((s.daemon.ended a).bind (Task.delivered own)).getD []
  world := s.world ++ ((s.daemon.ended a).bind (Task.seen own)).toList
  calls := s.calls ++ s.daemon.called env a

def step (env : Env) (own : Nat) (s : Trial) (a : App.Action) : Outcome Trial :=
  match s.daemon.step env a with
  | .next t => .next (s.advance env own a t)
  | .undefined => .undefined
  | .disabled => .disabled

-- A frame of the session that is deleted is inert when it is handled.
def SparesOthers (env : Env) (own : Nat) (delete : Nat → Bool) (s : Trial) (a : App.Action) : Prop :=
  ∀ f ∈ s.daemon.decodes own a, delete s.decoded.length = true → s.daemon.inert env f = true

instance (env : Env) (own : Nat) (delete : Nat → Bool) (s : Trial) (a : App.Action) :
    Decidable (SparesOthers env own delete s a) :=
  inferInstanceAs (Decidable (∀ f ∈ s.daemon.decodes own a, delete s.decoded.length = true →
    s.daemon.inert env f = true))

/-- The other run has the frames deleted from the input of the session, and otherwise the same
operations end, in the same order and with the same results. -/
structure Without (delete : Nat → Bool) (s s' : Trial) : Prop where
  input : ∃ rest, s.input = encodeAll s.decoded ++ rest ∧
    s'.input = encodeAll (thin delete 0 s.decoded) ++ rest
  decoded : s'.decoded = thin delete 0 s.decoded
  world : s'.world = s.world

/-- Neither the link nor the store nor another session knows the runs apart, but for time stamps. -/
structure Undisturbed (own : Nat) (s s' : Trial) : Prop where
  calls : s'.calls = s.calls
  link : s'.daemon.link = s.daemon.link
  state : s'.daemon.state.timeless = s.daemon.state.timeless
  sent : ∀ id, id ≠ own →
    (s'.daemon.sentTo id).map Frame.timeless = (s.daemon.sentTo id).map Frame.timeless

structure Balanced (own : Nat) (s : Trial) : Prop where
  input : s.input =
    encodeAll s.decoded ++ (s.daemon.buffer own ++ (s.daemon.arriving own).flatten)
  absent : s.daemon.sessions.length ≤ own → s.daemon.arriving own = []

structure Follows (own : Nat) (delete : Nat → Bool) (s s' : Trial) : Prop where
  shadows : s.daemon.Shadows own delete s.decoded.length s'.daemon
  decoded : s'.decoded = thin delete 0 s.decoded
  world : s'.world = s.world
  calls : s'.calls = s.calls

variable {env : Env} {own : Nat} {delete : Nat → Bool} {s s' : Trial}

theorem step_next {a : App.Action} (taken : step env own s a = .next s') :
    ∃ t, s.daemon.step env a = .next t ∧ s' = s.advance env own a t := by
  simp only [step] at taken
  split at taken
  next t here =>
    cases taken
    exact ⟨t, here, rfl⟩
  next => cases taken
  next => cases taken

theorem step_advance {a : App.Action} {t : App} (taken : s.daemon.step env a = .next t) :
    step env own s a = .next (s.advance env own a t) := by
  rw [step, taken]

theorem Balanced.step {a : App.Action} (balanced : s.Balanced own)
    (taken : step env own s a = .next s') : s'.Balanced own := by
  obtain ⟨t, ran, rfl⟩ := step_next taken
  obtain ⟨bytes, absent⟩ := App.step_bytes balanced.absent ran
  refine ⟨?_, absent⟩
  simp only [advance, encodeAll, List.flatMap_append] at bytes ⊢
  rw [balanced.input, List.append_assoc, bytes, List.append_assoc, encodeAll]

-- One step is followed by none.
theorem Follows.still {a : App.Action} {d : App} (follows : Follows own delete s s')
    (shadows : d.Shadows own delete (s.decoded ++ (s.daemon.decodes own a).toList).length s'.daemon)
    (deleted : thin delete s.decoded.length (s.daemon.decodes own a).toList = [])
    (hidden : (s.daemon.ended a).bind (Task.seen own) = none)
    (quiet : s.daemon.called env a = []) : Follows own delete (s.advance env own a d) s' where
  shadows := shadows
  decoded := by
    rw [advance, thin_append, Nat.zero_add, deleted, List.append_nil]
    exact follows.decoded
  world := by
    rw [advance, hidden, Option.toList_none, List.append_nil]
    exact follows.world
  calls := by
    rw [advance, quiet, List.append_nil]
    exact follows.calls

-- One step is followed by one.
theorem Follows.turned {a b : App.Action} {d d' : App} (follows : Follows own delete s s')
    (taken : s'.daemon.step env b = .next d')
    (shadows : d.Shadows own delete (s.decoded ++ (s.daemon.decodes own a).toList).length d')
    (kept : (s'.daemon.decodes own b).toList =
      thin delete s.decoded.length (s.daemon.decodes own a).toList)
    (ended : (s'.daemon.ended b).bind (Task.seen own) = (s.daemon.ended a).bind (Task.seen own))
    (called : s'.daemon.called env b = s.daemon.called env a) :
    ∃ t', Reaches (step env own) (fun _ _ => True) s' t' ∧
      Follows own delete (s.advance env own a d) t' := by
  refine ⟨s'.advance env own b d', .tail .refl trivial (step_advance taken), shadows, ?_, ?_, ?_⟩
  · rw [advance, advance, kept, follows.decoded, thin_append, Nat.zero_add]
  · rw [advance, advance, ended, follows.world]
  · rw [advance, advance, called, follows.calls]

theorem Follows.finish {i : Nat} {result : Completion} {d : App} (follows : Follows own delete s s')
    (taken : s.daemon.step env (.finish i result) = .next d) :
    ∃ t', Reaches (step env own) (fun _ _ => True) s' t' ∧
      Follows own delete (s.advance env own (.finish i result) d) t' := by
  obtain ⟨op, here, may, rfl⟩ := App.step_finish.mp taken
  have undecoded : (s.decoded ++ (s.daemon.decodes own (.finish i result)).toList).length =
      s.decoded.length := by
    rw [App.decodes, Option.toList_none, List.append_nil]
  have ended : (s.daemon.ended (.finish i result)).bind (Task.seen own) =
      (App.handlerOf op result).seen own := by
    rw [App.ended, here, Option.map_some, Option.bind_some]
  cases seen : op.seen own with
  | none =>
    refine ⟨s', .refl, follows.still ?_ rfl ?_ rfl⟩
    · rw [undecoded]
      exact follows.shadows.finishHidden here seen result
    · rw [ended, App.handlerOf_seen, seen, Option.bind_none]
  | some shown =>
    obtain ⟨j, op', result', here', may', same, shadows⟩ := follows.shadows.ends here seen may
    refine follows.turned (App.step_finish.mpr ⟨op', here', may', rfl⟩) (undecoded.symm ▸ shadows) rfl ?_ rfl
    rw [ended, ← same, App.ended, here', Option.map_some, Option.bind_some]

theorem run_idle (env : Env) (own : Nat) {d : App} (idle : d.rest = none) :
    d.decodes own .run = none ∧ d.called env .run = [] := by
  have foreign : ∀ rest, d.rest ≠ some rest := by simp [idle]
  exact ⟨App.decodes_foreign (foreign _) _, App.called_foreign (foreign _) (by simp [App.request, idle])⟩

-- The closures and handlers that write to the session may run first.
theorem Follows.flushed (env : Env) {hidden ready : List Task} {task : Task}
    (follows : Follows own delete s s')
    (idle : s'.daemon.rest = none) (waiting : s'.daemon.ready = hidden ++ task :: ready)
    (unseen : ∀ task ∈ hidden, task.seen own = none) :
    ∃ t', Reaches (step env own) (fun _ _ => True) s' t' ∧ Follows own delete s t' ∧
      t'.daemon.rest = none ∧ t'.daemon.ready = task :: ready := by
  induction hidden generalizing s' with
  | nil => exact ⟨s', .refl, follows, idle, waiting⟩
  | cons first hidden ih =>
    obtain ⟨t, handled, rest, left, shadows⟩ : ∃ t,
        App.runTask env { s'.daemon with ready := hidden ++ task :: ready } first = some t ∧
          t.rest = s'.daemon.rest ∧ t.ready = hidden ++ task :: ready ∧
          s.daemon.Shadows own delete s.decoded.length t :=
      follows.shadows.flush waiting (unseen first List.mem_cons_self)
    have taken := App.step_task idle waiting handled
    have quiet := run_idle env own idle
    have ran : Follows own delete s (s'.advance env own .run t) := by
      refine ⟨shadows, ?_, ?_, ?_⟩
      · rw [advance, quiet.1, Option.toList_none, List.append_nil]
        exact follows.decoded
      · exact (List.append_nil _).trans follows.world
      · rw [advance, quiet.2, List.append_nil]
        exact follows.calls
    obtain ⟨t', path, done⟩ :=
      ih ran (rest.trans idle) left fun other member => unseen other (List.mem_cons_of_mem _ member)
    exact ⟨t', .trans (.tail .refl trivial (step_advance taken)) path, done⟩

theorem Follows.task {task : Task} {ready : List Task} {d : App} (follows : Follows own delete s s')
    (idle : s.daemon.rest = none) (first : s.daemon.ready = task :: ready)
    (handled : App.runTask env { s.daemon with ready } task = some d) :
    ∃ t', Reaches (step env own) (fun _ _ => True) s' t' ∧
      Follows own delete (s.advance env own .run d) t' := by
  have quiet := run_idle env own idle
  have undecoded : (s.decoded ++ (s.daemon.decodes own .run).toList).length = s.decoded.length := by
    rw [quiet.1, Option.toList_none, List.append_nil]
  have none : thin delete s.decoded.length (s.daemon.decodes own .run).toList = [] := by
    rw [quiet.1]
    rfl
  cases seen : task.seen own with
  | none =>
    have shadows := follows.shadows.skip first seen handled
    exact ⟨s', .refl, follows.still (undecoded.symm ▸ shadows) none rfl quiet.2⟩
  | some shown =>
    have same := follows.shadows.alike.ready
    rw [first, List.filterMap_cons_some seen] at same
    obtain ⟨hidden, task', ready', waiting, unseen, seen', _⟩ := List.filterMap_eq_cons_iff.mp same
    have idle' : s'.daemon.rest = Option.none := follows.shadows.alike.rest.trans idle
    obtain ⟨t, path, followed, idle'', first'⟩ := follows.flushed env idle' waiting unseen
    obtain ⟨d', handled', shadows⟩ := followed.shadows.task first first' seen seen' handled
    have quiet' := run_idle env own idle''
    obtain ⟨t', last, done⟩ := followed.turned (App.step_task idle'' first' handled')
      (undecoded.symm ▸ shadows) (by rw [quiet'.1, none]; rfl) rfl (quiet'.2.trans quiet.2.symm)
    exact ⟨t', path.trans last, done⟩

theorem Follows.resume {rest : Rest} {d : App} (follows : Follows own delete s s')
    (resumed : s.daemon.rest = some rest) (foreign : rest ≠ .decode own)
    (handled : App.resume env { s.daemon with rest := none } rest = some d) :
    ∃ t', Reaches (step env own) (fun _ _ => True) s' t' ∧
      Follows own delete (s.advance env own .run d) t' := by
  have elsewhere : s.daemon.rest ≠ some (.decode own) := by
    rw [resumed]
    exact fun same => foreign (Option.some.inj same)
  have elsewhere' : s'.daemon.rest ≠ some (.decode own) := follows.shadows.alike.rest ▸ elsewhere
  have none := App.decodes_foreign elsewhere .run
  have none' := App.decodes_foreign elsewhere' .run
  obtain ⟨d', handled', shadows⟩ := follows.shadows.begun.resume foreign handled
  have resumed' : s'.daemon.rest = some rest := follows.shadows.alike.rest.trans resumed
  refine follows.turned (App.step_resumed resumed' handled') ?_ ?_ rfl
    (follows.shadows.alike.called elsewhere)
  · rw [none, Option.toList_none, List.append_nil]
    exact shadows
  · rw [none, none']
    rfl

theorem without_nil (delete : Nat → Bool) (n : Nat) : frames.without delete n [] = [] := by
  rw [frames.without_none delete n (by rfl), ite_self]

theorem Follows.decode {d : App} (follows : Follows own delete s s')
    (spares : SparesOthers env own delete s .run) (resumed : s.daemon.rest = some (.decode own))
    (handled : App.resume env { s.daemon with rest := none } (.decode own) = some d) :
    ∃ t', Reaches (step env own) (fun _ _ => True) s' t' ∧
      Follows own delete (s.advance env own .run d) t' := by
  have shadows := follows.shadows
  have resumed' : s'.daemon.rest = some (.decode own) := shadows.alike.rest.trans resumed
  have waits : ∀ {d' : App}, frames.cut (s.daemon.buffer own) = none →
      frames.cut (s'.daemon.buffer own) = none →
      App.resume env { s'.daemon with rest := none } (.decode own) = some d' →
      d.Shadows own delete s.decoded.length d' →
      ∃ t', Reaches (step env own) (fun _ _ => True) s' t' ∧
        Follows own delete (s.advance env own .run d) t' := by
    intro d' waiting waiting' handled' shadows'
    have none := App.decodes_waiting waiting .run
    have none' := App.decodes_waiting waiting' .run
    refine follows.turned (App.step_resumed resumed' handled') ?_ ?_ rfl
      (shadows.alike.called_own resumed (none'.trans none.symm))
    · rw [none, Option.toList_none, List.append_nil]
      exact shadows'
    · rw [none, none']
      rfl
  cases App.turned_of_resume handled with
  | expired gone =>
    have missing : s.daemon.sessions[own]? = none := gone
    have waiting' : frames.cut (s'.daemon.buffer own) = none := by
      rw [shadows.buffer, App.buffer_gone missing, without_nil]
      rfl
    exact waits (App.waiting_gone missing) waiting' (shadows.begun.expired gone) shadows.begun
  | @waits session here waiting stays =>
    have buffer : s.daemon.buffer own = session.rxbuf := App.buffer_eq here
    obtain ⟨waiting', d', handled', shadows'⟩ := shadows.begun.waits here waiting stays
    exact waits (by rw [buffer]; exact waiting) waiting' handled' shadows'
  | @found session f size _ here found handled =>
    have buffer : s.daemon.buffer own = session.rxbuf := App.buffer_eq here
    have decodes := App.decodes_found resumed (by rw [buffer]; exact found)
    have further : (s.decoded ++ (s.daemon.decodes own .run).toList).length =
        s.decoded.length + 1 := by
      rw [decodes, Option.toList_some, List.length_append, List.length_singleton]
    cases deletes : delete s.decoded.length with
    | false =>
      obtain ⟨found', d', handled', shadows'⟩ := shadows.begun.found here found deletes handled
      have decodes' := App.decodes_found resumed' found'
      refine follows.turned (App.step_resumed resumed' handled') (further.symm ▸ shadows') ?_ rfl
        (shadows.alike.called_own resumed (decodes'.trans decodes.symm))
      rw [decodes, decodes', Option.toList_some, thin, deletes]
      rfl
    | true =>
      have answered := App.handleFrame_inert (spares f decodes deletes) handled
      have left := App.handleFrame_leaves (List.getElem?_eq_some_iff.mp here).1 handled
      have left : App.Leaves own (session.rxbuf.drop size) session.sockOpen s.daemon d :=
        { left with }
      have alike : s.daemon.Alike own d :=
        { answered.1 with rest := answered.1.rest.trans resumed.symm }
      refine ⟨s', .refl, follows.still ?_ ?_ rfl ?_⟩
      · rw [further]
        exact shadows.deleted here found deletes left alike
      · rw [decodes, Option.toList_some, thin, deletes]
        rfl
      · rw [App.called, App.request_decodes resumed, decodes, Option.bind_some]
        split
        next asked =>
          split at asked
          next asks =>
            cases asked
            exact answered.2 asks
          next => cases asked
        next => simp [resumed]

theorem Follows.step {a : App.Action} {t : Trial} (follows : Follows own delete s s')
    (spares : SparesOthers env own delete s a) (taken : Trial.step env own s a = .next t) :
    ∃ t', Reaches (Trial.step env own) (fun _ _ => True) s' t' ∧ Follows own delete t t' := by
  obtain ⟨d, ran, rfl⟩ := step_next taken
  cases a with
  | finish i result => exact follows.finish ran
  | run =>
    rcases App.step_run ran with ⟨rest, resumed, handled⟩ | ⟨idle, task, ready, first, handled⟩
    · by_cases mine : rest = .decode own
      · subst mine
        exact follows.decode spares resumed handled
      · exact follows.resume resumed mine handled
    · exact follows.task idle first handled

theorem follows_initial (transport : Transport) (own : Nat) (delete : Nat → Bool) :
    Follows own delete { daemon := App.initial transport } { daemon := App.initial transport } where
  shadows :=
    { alike := .refl _
      opened := id
      unwritten := fun _ member => (by cases member)
      absent := fun _ => rfl
      arrived := rfl
      bytes := fun k => by
        have none : App.arriving (App.initial transport) own = [] := rfl
        rw [none, List.take_nil]
        exact (without_nil delete _).symm }
  decoded := rfl
  world := rfl
  calls := rfl

theorem Follows.undisturbed (follows : Follows own delete s s') : s.Undisturbed own s' where
  calls := follows.calls
  link := follows.shadows.alike.link
  state := follows.shadows.alike.state
  sent := by
    intro id other
    rw [App.sentTo, App.sentTo, ← App.sentTo_seen other, ← App.sentTo_seen other,
      follows.shadows.alike.history]

theorem Follows.without (follows : Follows own delete s s') (balanced : s.Balanced own)
    (balanced' : s'.Balanced own) (settled : ∀ n, delete n = true → n < s.decoded.length) :
    Without delete s s' where
  input := by
    refine ⟨_, balanced.input, ?_⟩
    have keeps : ∀ m, s.decoded.length ≤ m → delete m = false := by
      intro m later
      by_contra deletes
      exact absurd (settled m (by simpa using deletes)) (Nat.not_lt.mpr later)
    have all := follows.shadows.bytes (s.daemon.arriving own).length
    rw [List.take_length, List.take_of_length_le (Nat.le_of_eq follows.shadows.arrived),
      frames.without_id keeps] at all
    rw [balanced'.input, follows.decoded, all]
  decoded := follows.decoded
  world := follows.world

end Trial

-- The second of two clients sends a `PING` and a packet.
def secondSends : List App.Action :=
  [.run, .finish 0 (.ok []), .run, .run, .run, .run, .finish 2 (.ok []), .run, .run, .run, .run,
    .finish 3 (.ok (encodeAll [command "PING", packetSend])), .run, .run, .run]

end ExnGs.Daemon
