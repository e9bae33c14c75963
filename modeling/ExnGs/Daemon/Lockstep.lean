import ExnGs.Daemon.Alike
import ExnGs.Daemon.Intake
import ExnGs.Lib.Thinning

set_option autoImplicit false

-- Tasks that look alike, in states that look alike.
namespace ExnGs.Daemon

open Proto EventLoop Thinning

theorem IpcSession.outline_received {s s' : IpcSession} (same : s'.outline = s.outline)
    (rxbuf : List UInt8) : outline { s' with rxbuf } = outline { s with rxbuf } :=
  congrArg (fun s => { s with rxbuf }) same

namespace App

variable {env : Env} {own id : Nat} {d t : App}

theorem seen_ops (other : id ≠ own) (ops : List SessionOp) :
    (ops.map (Op.session id)).filterMap (Op.seen own) =
      (ops.map SessionOp.outline).map (Op.session id) := by
  induction ops with
  | nil => rfl
  | cons op ops ih =>
    cases op with
    | read => simpa [Op.seen, SessionOp.outline] using ih
    | write bytes => simpa [Op.seen, SessionOp.outline, other] using ih

theorem Alike.onSession (alike : d.Alike own t) (other : id ≠ own)
    {e e' : Effects IpcSession SessionOp SharedBytes}
    (same : IpcSession.outlines e' = IpcSession.outlines e) :
    (d.onSession id e).Alike own (t.onSession id e') := by
  have state : e'.state.outline = e.state.outline := congrArg Effects.state same
  have started : e'.started.map SessionOp.outline = e.started.map SessionOp.outline :=
    congrArg Effects.started same
  rw [onSession_eq, onSession_eq]
  refine { alike.setSession id fun _ => state with outstanding := ?_ }
  simp only [List.filterMap_append, alike.outstanding, seen_ops other, started]

theorem alike_onSession_own {e : Effects IpcSession SessionOp SharedBytes}
    (writes : ∀ op ∈ e.started, ∃ bytes, op = .write bytes) : d.Alike own (d.onSession own e) := by
  have hidden : (e.started.map (Op.session own)).filterMap (Op.seen own) = [] := by
    rw [List.filterMap_eq_nil_iff]
    intro op member
    obtain ⟨started, inside, rfl⟩ := List.mem_map.mp member
    obtain ⟨bytes, rfl⟩ := writes started inside
    rw [Op.seen, if_pos rfl]
  rw [onSession_eq]
  refine { alike_setSession_own d e.state with outstanding := ?_ }
  rw [List.filterMap_append, hidden, List.append_nil]

theorem Alike.welcome (alike : d.Alike own t) : d.welcome.Alike own t.welcome :=
  { alike with
    rest := by simp only [App.welcome, alike.sessions]
    sessions := by simp only [App.welcome, List.length_append, alike.sessions]
    others := by
      intro id other
      simp only [App.welcome, List.getElem?_append, alike.sessions]
      split
      next => exact alike.others id other
      next => rfl }

theorem Alike.lookup (alike : d.Alike own t) (id : Nat) :
    (d.sessions[id]? = none ∧ t.sessions[id]? = none) ∨
      ∃ session session', d.sessions[id]? = some session ∧ t.sessions[id]? = some session' ∧
        (id ≠ own → session'.outline = session.outline) := by
  by_cases inside : id < d.sessions.length
  · have inside' : id < t.sessions.length := alike.sessions ▸ inside
    refine .inr ⟨_, _, List.getElem?_eq_getElem inside, List.getElem?_eq_getElem inside', ?_⟩
    intro other
    have same := alike.others id other
    rw [List.getElem?_eq_getElem inside, List.getElem?_eq_getElem inside'] at same
    exact Option.some.inj same
  · have outside : d.sessions.length ≤ id := Nat.le_of_not_lt inside
    exact .inl ⟨List.getElem?_eq_none outside, List.getElem?_eq_none (alike.sessions ▸ outside)⟩

theorem Alike.handleFrame (alike : d.Alike own t) (id : Nat) {session session' : IpcSession}
    (same : id ≠ own → session'.outline = session.outline) (f : Frame) :
    Matched own (d.handleFrame env id session f) (t.handleFrame env id session' f) := by
  have begun : App.Alike own { d.setSession id session with rest := some (.decode id) }
      { t.setSession id session' with rest := some (.decode id) } :=
    { alike.setSession id same with rest := rfl }
  simp only [App.handleFrame]
  split
  next => exact begun.onFrame f id
  next => exact begun.matched

theorem Alike.decode (alike : d.Alike own t) {session session' : IpcSession}
    (same : session'.outline = session.outline) :
    Matched own (d.decode env id session) (t.decode env id session') := by
  have rxbuf : session'.outline.rxbuf = session.outline.rxbuf := by rw [same]
  have rxbuf : session'.rxbuf = session.rxbuf := rxbuf
  cases decoded : tryDecode session.rxbuf .unset with
  | none =>
    simp only [App.decode, rxbuf, decoded]
    exact .none
  | some result =>
    obtain ⟨found, rest, f⟩ := result
    have decoded' := decoded
    rw [← rxbuf] at decoded'
    have received := fun _ : id ≠ own => IpcSession.outline_received same rest
    cases found with
    | false =>
      rw [decode_waits decoded, decode_waits decoded']
      exact ((alike.setSession id received).initiate rfl).matched
    | true =>
      rw [decode_found decoded, decode_found decoded']
      exact alike.handleFrame id received f

theorem Alike.resume (alike : d.Alike own t) {rest : Rest} (foreign : rest ≠ .decode own) :
    Matched own (d.resume env rest) (t.resume env rest) := by
  cases rest with
  | boot =>
    simp only [App.resume, alike.link]
    split
    next => exact alike.matched
    next => exact alike.onLink _
  | greet id =>
    have hello := alike.send id
      (f := { type := .Hello, payload := packString (text "exn_gsd") }) rfl
    simp only [App.resume, hello.currentLinkFrame]
    exact ((hello.send id rfl).initiate rfl).matched
  | decode id =>
    have other : id ≠ own := fun same => foreign (by rw [same])
    simp only [App.resume]
    rcases alike.lookup id with ⟨gone, gone'⟩ | ⟨session, session', here, here', same⟩
    · rw [gone, gone']
      exact alike.matched
    · rw [here, here']
      exact alike.decode (same other)

-- The bytes of a read are all that tells between them, and only to the one session.
theorem Alike.runRead (alike : d.Alike own t) (id : Nat) {data data' : List UInt8}
    (same : id ≠ own → data' = data) :
    Matched own (d.runTask env (.session id .read (.ok data)))
      (t.runTask env (.session id .read (.ok data'))) := by
  simp only [App.runTask]
  rcases alike.lookup id with ⟨gone, gone'⟩ | ⟨session, session', here, here', outlined⟩
  · rw [gone, gone']
    exact alike.matched
  · rw [here, here']
    refine Alike.matched { alike.setSession id ?_ with rest := rfl }
    intro other
    have rxbuf : session'.outline.rxbuf = session.outline.rxbuf := by rw [outlined other]
    have rxbuf : session'.rxbuf = session.rxbuf := rxbuf
    rw [same other, rxbuf]
    exact IpcSession.outline_received (outlined other) _

-- A task does what it looks like.
theorem Alike.runTask_seen (alike : d.Alike own t) {task shown : Task}
    (seen : task.seen own = some shown) :
    Matched own (d.runTask env task) (t.runTask env shown) := by
  cases Task.shows_of_seen seen with
  | accepted result =>
    cases result with
    | error message => exact (alike.initiate rfl).matched
    | ok data =>
      have started : App.Alike own (d.initiate (.session d.sessions.length .read))
          (t.initiate (.session t.sessions.length .read)) :=
        alike.initiate (by rw [alike.sessions])
      exact started.welcome.matched
  | failed id message =>
    simp only [App.runTask]
    rcases alike.lookup id with ⟨gone, gone'⟩ | ⟨session, session', here, here', same⟩
    · rw [gone, gone']
      exact alike.matched
    · have closed : id ≠ own → session'.close.outline = session.close.outline := by
        intro other
        have outlined := congrArg IpcSession.close (same other)
        exact outlined
      rw [here, here']
      exact (alike.setSession id closed).matched
  | read other data => exact alike.runRead _ fun _ => rfl
  | ownRead data => exact alike.runRead _ fun other => absurd rfl other
  | @written id other bytes result =>
    simp only [App.runTask]
    rcases alike.lookup id with ⟨gone, gone'⟩ | ⟨session, session', here, here', same⟩
    · rw [gone, gone']
      exact alike.matched
    · have written : (session'.onWritten result).map IpcSession.outlines =
          (session.onWritten result).map IpcSession.outlines := by
        rw [← IpcSession.outline_onWritten, ← IpcSession.outline_onWritten, same other]
      rw [here, here']
      simp only
      cases first : session.onWritten result with
      | none =>
        rw [first, Option.map_none, Option.map_eq_none_iff] at written
        rw [written]
        exact .none
      | some e =>
        rw [first, Option.map_some, Option.map_eq_some_iff] at written
        obtain ⟨e', second, outlined⟩ := written
        rw [second]
        exact (alike.onSession other outlined).matched
  | @sent id other bytes =>
    simp only [App.runTask]
    rcases alike.lookup id with ⟨gone, gone'⟩ | ⟨session, session', here, here', same⟩
    · rw [gone, gone']
      exact alike.matched
    · rw [here, here']
      refine (alike.onSession other ?_).matched
      rw [← IpcSession.outline_runSend, ← IpcSession.outline_runSend, same other]
  | link op result =>
    simp only [App.runTask, alike.link]
    exact alike.onLink _
  | transmit bytes =>
    simp only [App.runTask, alike.link]
    exact alike.onLink _

theorem Alike.runTask (alike : d.Alike own t) {task task' shown : Task}
    (seen : task.seen own = some shown) (seen' : task'.seen own = some shown) :
    Matched own (d.runTask env task) (t.runTask env task') :=
  (alike.runTask_seen seen).trans ((Alike.refl t).runTask_seen seen').symm

-- The other tasks are the closures and the handlers that write to the one session.
theorem alike_hidden {task : Task} (hidden : task.seen own = none)
    (handled : d.runTask env task = some t) : d.Alike own t := by
  have writes : ∀ s : IpcSession, ∀ op ∈ s.doWrite, ∃ bytes, op = .write bytes := by
    intro s op member
    simp only [IpcSession.doWrite] at member
    split at member
    next => cases member
    next bytes _ _ =>
      split at member
      next => exact ⟨bytes, List.mem_singleton.mp member⟩
      next => cases member
  cases Task.hides_of_seen hidden with
  | written bytes result =>
    simp only [App.runTask] at handled
    split at handled
    next =>
      cases handled
      exact .refl _
    next session _ =>
      obtain ⟨e, written, rfl⟩ := Option.map_eq_some_iff.mp handled
      refine alike_onSession_own fun op member => ?_
      cases result with
      | error message =>
        cases written
        cases member
      | ok data =>
        obtain ⟨_, _, _, rfl⟩ := IpcSession.onWritten_ok data written
        exact writes _ op member
  | sent bytes =>
    simp only [App.runTask] at handled
    split at handled
    next =>
      cases handled
      exact .refl _
    next session _ =>
      cases handled
      refine alike_onSession_own fun op member => ?_
      simp only [IpcSession.runSend] at member
      split at member
      next => cases member
      next =>
        split at member
        next => exact writes _ op member
        next => cases member

theorem handlerOf_seen (own : Nat) (op : Op) (result : Completion) :
    (handlerOf op result).seen own =
      (op.seen own).bind fun shown => (handlerOf shown result).seen own := by
  cases op with
  | accept => rfl
  | link op => rfl
  | session id op =>
    cases op with
    | read => rfl
    | write bytes =>
      by_cases mine : id = own
      · simp [handlerOf, Task.seen, Op.seen, mine]
      · simp [handlerOf, Task.seen, Op.seen, mine]

end App

end ExnGs.Daemon
