import ExnGs.Daemon.Lockstep

set_option autoImplicit false

-- Two daemons, of which the second one is spared some of the frames of one session.
namespace ExnGs.Daemon

open Proto Thinning

-- Hidden tasks bring nothing and do not open the socket; the others do what they look like.
theorem Task.Hides.socketAfter {own : Nat} {task : Task} (hides : task.Hides own) {count : Nat}
    {opened : Bool} (after : task.socketAfter own count opened = true) : opened = true := by
  cases hides with
  | written bytes result =>
    rw [Task.socketAfter, if_pos rfl] at after
    exact (Bool.and_eq_true_iff.mp after).1
  | sent bytes => exact after

theorem Task.Hides.undelivered {own : Nat} {task : Task} (hides : task.Hides own) :
    task.delivered own = none := by
  cases hides with
  | written bytes result => rfl
  | sent bytes => rfl

theorem Task.Shows.socketAfter {own : Nat} {task shown : Task} (sight : Shows own task shown)
    (count : Nat) (opened : Bool) :
    task.socketAfter own count opened = shown.socketAfter own count opened := by
  cases sight with
  | _ => rfl

theorem Task.Shows.delivered {own : Nat} {task shown : Task} (sight : Shows own task shown) :
    (task.delivered own).isSome = (shown.delivered own).isSome := by
  cases sight with
  | ownRead data => simp only [Task.delivered, if_true, Option.isSome_some]
  | _ => rfl

theorem Task.Shows.unwritten {own : Nat} {task shown : Task} (sight : Shows own task shown) :
    ¬ task.Written own := by
  intro written
  cases sight with
  | written other bytes result => exact other written
  | _ => cases written

theorem Task.socketAfter_mono (own count : Nat) {opened opened' : Bool} (task : Task)
    (stays : opened = true → opened' = true) (after : task.socketAfter own count opened = true) :
    task.socketAfter own count opened' = true := by
  cases opened with
  | true =>
    rw [stays rfl]
    exact after
  | false =>
    cases opened' with
    | false => exact after
    | true =>
      cases task with
      | session id op result =>
        simp only [Task.socketAfter] at after ⊢
        split at after
        next => cases after
        next => cases after
      | accepted result => rfl
      | _ => rfl

namespace App

/-- The second daemon has what the first one has without the frames deleted. The next frame that the
session decodes in the first one is number `n`. -/
structure Shadows (own : Nat) (delete : Nat → Bool) (n : Nat) (d t : App) : Prop where
  alike : d.Alike own t
  opened : d.socketOpen own = true → t.socketOpen own = true
  unwritten : ∀ task ∈ t.ready, ¬ task.Written own
  absent : d.sessions.length ≤ own → d.arriving own = []
  arrived : (t.arriving own).length = (d.arriving own).length
  bytes : ∀ k, t.buffer own ++ ((t.arriving own).take k).flatten =
    frames.without delete n (d.buffer own ++ ((d.arriving own).take k).flatten)

variable {env : Env} {own : Nat} {delete : Nat → Bool} {n : Nat} {d t d' t' : App}

theorem Shadows.moved {rxbuf rxbuf' : List UInt8} {opened opened' : Bool} {m : Nat}
    (shadows : d.Shadows own delete n t) (left : Leaves own rxbuf opened d d')
    (left' : Leaves own rxbuf' opened' t t') (alike : d'.Alike own t')
    (stays : opened = true → opened' = true)
    (bytes : ∀ more more', t.buffer own ++ more' = frames.without delete n (d.buffer own ++ more) →
      rxbuf' ++ more' = frames.without delete m (rxbuf ++ more)) :
    d'.Shadows own delete m t' where
  alike := alike
  opened := by
    rw [left.socket, left'.socket]
    exact stays
  unwritten := fun task member written =>
    shadows.unwritten task (left'.written task member written) written
  absent := by
    intro outside
    rw [left.arriving]
    exact shadows.absent (Nat.le_trans left.sessions outside)
  arrived := by rw [left.arriving, left'.arriving, shadows.arrived]
  bytes := by
    intro k
    rw [left.buffer, left.arriving, left'.buffer, left'.arriving]
    exact bytes _ _ (shadows.bytes k)

theorem Leaves.taken {task : Task} {rest : List Task} {rxbuf : List UInt8} {opened : Bool}
    (ready : d.ready = task :: rest) (undelivered : task.delivered own = none)
    (left : Leaves own rxbuf opened { d with ready := rest } t) : Leaves own rxbuf opened d t := by
  have arriving : d.arriving own = App.arriving { d with ready := rest } own := by
    rw [App.arriving, ready, List.filterMap_cons_none undelivered]
    rfl
  refine ⟨left.buffer, left.socket, left.arriving.trans arriving.symm, ?_, left.sessions⟩
  intro other member written
  rw [ready]
  exact List.mem_cons_of_mem _ (left.written other member written)

theorem Alike.taken {task task' shown : Task} {rest rest' : List Task} (alike : d.Alike own t)
    (ready : d.ready = task :: rest) (ready' : t.ready = task' :: rest')
    (seen : task.seen own = some shown) (seen' : task'.seen own = some shown) :
    App.Alike own { d with ready := rest } { t with ready := rest' } := by
  have same := alike.ready
  rw [ready, ready', List.filterMap_cons_some seen, List.filterMap_cons_some seen'] at same
  exact { alike with ready := (List.cons.inj same).2 }

-- What tells only the session, in either daemon.
theorem Shadows.skip {task : Task} {rest : List Task} (shadows : d.Shadows own delete n t)
    (ready : d.ready = task :: rest) (hidden : task.seen own = none)
    (handled : { d with ready := rest }.runTask env task = some d') :
    d'.Shadows own delete n t := by
  have hides := Task.hides_of_seen hidden
  have left := (runTask_leaves hides.undelivered handled).taken ready hides.undelivered
  have taken : App.Alike own { d with ready := rest } t :=
    { shadows.alike with
      ready := by rw [shadows.alike.ready, ready, List.filterMap_cons_none hidden] }
  exact shadows.moved left (.quiet rfl rfl) ((alike_hidden hidden handled).symm.trans taken)
    (fun after => shadows.opened (hides.socketAfter after)) fun _ _ same => same

theorem Shadows.flush {task : Task} {rest : List Task} (shadows : d.Shadows own delete n t)
    (ready : t.ready = task :: rest) (hidden : task.seen own = none) :
    ∃ t', { t with ready := rest }.runTask env task = some t' ∧ t'.rest = t.rest ∧
      t'.ready = rest ∧ d.Shadows own delete n t' := by
  have hides := Task.hides_of_seen hidden
  cases hides with
  | written bytes result =>
    have written : Task.Written own (.session own (.write bytes) result) := rfl
    exact absurd written (shadows.unwritten _ (by rw [ready]; exact List.mem_cons_self))
  | sent bytes =>
    obtain ⟨t', handled, rest', ready'⟩ : ∃ t',
        { t with ready := rest }.runTask env (.send own bytes) = some t' ∧ t'.rest = t.rest ∧
          t'.ready = rest := by
      simp only [runTask]
      split
      next => exact ⟨_, rfl, rfl, rfl⟩
      next => exact ⟨_, rfl, by rw [onSession_eq]; rfl, by rw [onSession_eq]; rfl⟩
    have undelivered : (Task.send own bytes).delivered own = none := rfl
    have left := (runTask_leaves undelivered handled).taken ready undelivered
    have taken : App.Alike own { t with ready := rest } d :=
      { shadows.alike.symm with
        ready := by rw [shadows.alike.symm.ready, ready, List.filterMap_cons_none hidden] }
    exact ⟨t', handled, rest', ready', shadows.moved (.quiet rfl rfl) left
      (taken.symm.trans (alike_hidden hidden handled)) shadows.opened fun _ _ same => same⟩

theorem Shadows.task {task task' shown : Task} {rest rest' : List Task}
    (shadows : d.Shadows own delete n t) (ready : d.ready = task :: rest)
    (ready' : t.ready = task' :: rest') (seen : task.seen own = some shown)
    (seen' : task'.seen own = some shown)
    (handled : { d with ready := rest }.runTask env task = some d') :
    ∃ t', { t with ready := rest' }.runTask env task' = some t' ∧ d'.Shadows own delete n t' := by
  have sight := Task.shows_of_seen seen
  have sight' := Task.shows_of_seen seen'
  obtain ⟨t', handled', alike⟩ :=
    ((shadows.alike.taken ready ready' seen seen').runTask seen seen').next handled
  refine ⟨t', handled', ?_⟩
  have same : (task'.delivered own).isSome = (task.delivered own).isSome := by
    rw [sight.delivered, sight'.delivered]
  cases delivers : task.delivered own with
  | none =>
    rw [delivers, Option.isSome_none, Option.isSome_eq_false_iff, Option.isNone_iff_eq_none] at same
    have left := (runTask_leaves delivers handled).taken ready delivers
    have left' := (runTask_leaves same handled').taken ready' same
    refine shadows.moved left left' alike ?_ fun _ _ same => same
    intro after
    rw [sight.socketAfter] at after
    rw [sight'.socketAfter, shadows.alike.sessions]
    exact Task.socketAfter_mono own _ shown shadows.opened after
  | some data =>
    rw [delivers, Option.isSome_some] at same
    obtain ⟨data', delivers'⟩ := Option.isSome_iff_exists.mp same
    obtain rfl := Task.read_of_delivered delivers
    obtain rfl := Task.read_of_delivered delivers'
    have arriving := arriving_cons ready delivers
    have arriving' := arriving_cons ready' delivers'
    have known := known_of_arriving shadows.absent arriving
    have known' : own < t.sessions.length := shadows.alike.sessions ▸ known
    have left := runRead_leaves (d := { d with ready := rest }) known handled
    have left' := runRead_leaves (d := { t with ready := rest' }) known' handled'
    refine ⟨alike, ?_, ?_, ?_, ?_, ?_⟩
    · rw [left.socket, left'.socket]
      exact shadows.opened
    · intro other member written
      refine shadows.unwritten other ?_ written
      rw [ready']
      exact List.mem_cons_of_mem _ (left'.written other member written)
    · intro outside
      exact absurd known (Nat.not_lt.mpr (Nat.le_trans left.sessions outside))
    · have arrived := shadows.arrived
      rw [arriving, arriving', List.length_cons, List.length_cons] at arrived
      rw [left.arriving, left'.arriving]
      exact Nat.succ.inj arrived
    · intro k
      have bytes := shadows.bytes (k + 1)
      rw [arriving, arriving', List.take_succ_cons, List.take_succ_cons, List.flatten_cons,
        List.flatten_cons, ← List.append_assoc, ← List.append_assoc] at bytes
      rw [left.buffer, left.arriving, left'.buffer, left'.arriving]
      exact bytes

theorem Shadows.finishHidden {i : Nat} {op : Op} (shadows : d.Shadows own delete n t)
    (here : d.outstanding[i]? = some op) (hidden : op.seen own = none) (result : Completion) :
    (d.finish i op result).Shadows own delete n t := by
  have unseen : (handlerOf op result).seen own = none := by rw [handlerOf_seen, hidden]; rfl
  have undelivered := (Task.hides_of_seen unseen).undelivered
  have arriving : (d.finish i op result).arriving own = d.arriving own := by
    rw [finish_arriving, undelivered, Option.toList_none, List.append_nil]
  have alike : (d.finish i op result).Alike own t :=
    { shadows.alike with
      ready := by
        rw [finish, List.filterMap_append, List.filterMap_cons_none unseen, List.filterMap_nil,
          List.append_nil, shadows.alike.ready]
      outstanding := by
        rw [finish, filterMap_eraseIdx_hidden here hidden, shadows.alike.outstanding] }
  refine ⟨alike, shadows.opened, shadows.unwritten, ?_, ?_, ?_⟩
  · rw [arriving]
    exact shadows.absent
  · rw [arriving]
    exact shadows.arrived
  · rw [arriving]
    exact shadows.bytes

theorem Shadows.finish {i j : Nat} {op op' : Op} {result result' : Completion} {shown : Task}
    (shadows : d.Shadows own delete n t)
    (erased : (t.outstanding.eraseIdx j).filterMap (Op.seen own) =
      (d.outstanding.eraseIdx i).filterMap (Op.seen own))
    (seen : (handlerOf op result).seen own = some shown)
    (seen' : (handlerOf op' result').seen own = some shown)
    (delivers : ∀ data, (handlerOf op result).delivered own = some data →
      own < d.sessions.length ∧ ∃ data', (handlerOf op' result').delivered own = some data' ∧
        frames.without delete n (d.buffer own ++ (d.arriving own).flatten) ++ data' =
          frames.without delete n (d.buffer own ++ (d.arriving own).flatten ++ data)) :
    (d.finish i op result).Shadows own delete n (t.finish j op' result') := by
  have sight := Task.shows_of_seen seen
  have sight' := Task.shows_of_seen seen'
  have same : ((handlerOf op' result').delivered own).isSome =
      ((handlerOf op result).delivered own).isSome := by
    rw [sight.delivered, sight'.delivered]
  have alike : (d.finish i op result).Alike own (t.finish j op' result') :=
    { shadows.alike with
      ready := filterMap_concat shadows.alike.ready (by rw [seen, seen'])
      outstanding := erased }
  cases now : (handlerOf op result).delivered own with
  | none =>
    rw [now, Option.isSome_none, Option.isSome_eq_false_iff, Option.isNone_iff_eq_none] at same
    exact shadows.moved (finish_leaves now sight.unwritten) (finish_leaves same sight'.unwritten)
      alike shadows.opened fun _ _ same => same
  | some data =>
    obtain ⟨known, data', now', more⟩ := delivers data now
    have arriving : (d.finish i op result).arriving own = d.arriving own ++ [data] := by
      rw [finish_arriving, now, Option.toList_some]
    have arriving' : (t.finish j op' result').arriving own = t.arriving own ++ [data'] := by
      rw [finish_arriving, now', Option.toList_some]
    refine ⟨alike, shadows.opened, ?_, fun outside => absurd known (Nat.not_lt.mpr outside), ?_, ?_⟩
    · intro task member
      rcases List.mem_append.mp member with old | new
      · exact shadows.unwritten task old
      · rw [List.mem_singleton.mp new]
        exact sight'.unwritten
    · rw [arriving, arriving', List.length_append, List.length_append, shadows.arrived]
      rfl
    · intro k
      rw [arriving, arriving']
      by_cases before : k ≤ (d.arriving own).length
      · rw [List.take_append_of_le_length before,
          List.take_append_of_le_length (shadows.arrived ▸ before)]
        exact shadows.bytes k
      · have all : (d.arriving own ++ [data]).length ≤ k := by
          rw [List.length_append, List.length_singleton]
          omega
        have all' : (t.arriving own ++ [data']).length ≤ k := by
          rw [List.length_append, List.length_singleton, shadows.arrived]
          omega
        have whole := shadows.bytes (d.arriving own).length
        rw [List.take_length, ← shadows.arrived, List.take_length] at whole
        rw [List.take_of_length_le all, List.take_of_length_le all', List.flatten_append,
          List.flatten_append, List.flatten_singleton, List.flatten_singleton, ← List.append_assoc,
          ← List.append_assoc]
        change t.buffer own ++ (t.arriving own).flatten ++ data' =
          frames.without delete n (d.buffer own ++ (d.arriving own).flatten ++ data)
        rw [whole, more]

theorem Alike.mayEnd (alike : d.Alike own t) (op : Op) {result result' : Completion}
    (opened : d.socketOpen own = true → t.socketOpen own = true)
    (plain : ∀ op', op = .link op' → result' = result) (same : result'.isOk = result.isOk)
    (may : d.mayEnd op result = true) : t.mayEnd op result' = true := by
  cases op with
  | accept => rfl
  | link op =>
    rw [plain op rfl, App.mayEnd, alike.link]
    exact may
  | session id op =>
    simp only [App.mayEnd, Bool.or_eq_true, same] at may ⊢
    refine may.imp_right fun open_ => ?_
    by_cases mine : id = own
    · subst mine
      exact opened open_
    · rcases alike.lookup id with ⟨gone, _⟩ | ⟨session, session', here, here', outlined⟩
      · rw [gone] at open_
        cases open_
      · have socket : session'.outline.sockOpen = session.outline.sockOpen := by rw [outlined mine]
        have socket : session'.sockOpen = session.sockOpen := socket
        rw [here] at open_
        rw [here', Option.map_some, socket]
        exact open_

theorem mayEnd_seen {op shown : Op} (seen : op.seen own = some shown) (d : App)
    (result : Completion) : d.mayEnd op result = d.mayEnd shown result := by
  rcases Op.seen_cases seen with rfl | ⟨id, bytes, _, rfl, rfl⟩
  · rfl
  · rfl

/-- Where an operation ends that is not a write to the session, so does its counterpart. A read of the
session delivers there what is left of the bytes. -/
theorem Shadows.ends {i : Nat} {op shown : Op} {result : Completion}
    (shadows : d.Shadows own delete n t) (here : d.outstanding[i]? = some op)
    (seen : op.seen own = some shown) (may : d.mayEnd op result = true) :
    ∃ j op' result', t.outstanding[j]? = some op' ∧ t.mayEnd op' result' = true ∧
      (handlerOf op' result').seen own = (handlerOf op result).seen own ∧
      (d.finish i op result).Shadows own delete n (t.finish j op' result') := by
  obtain ⟨j, op', here', seen', erased⟩ := counterpart shadows.alike.outstanding here seen
  have handler := handlerOf_seen own op result
  rw [seen, Option.bind_some] at handler
  obtain ⟨shown', visible⟩ : ∃ shown', (handlerOf op result).seen own = some shown' := by
    rcases Task.seen_cases own (handlerOf op result) with ⟨shown', visible, _⟩ | ⟨_, hides⟩
    · exact ⟨shown', visible⟩
    · cases op with
      | session id op =>
        cases hides with
        | written bytes result =>
          rw [Op.seen, if_pos rfl] at seen
          cases seen
      | _ => cases hides
  rw [mayEnd_seen seen] at may
  cases delivers : (handlerOf op result).delivered own with
  | none =>
    have handler' := handlerOf_seen own op' result
    rw [seen', Option.bind_some, ← handler] at handler'
    refine ⟨j, op', result, here', ?_, handler', ?_⟩
    · rw [mayEnd_seen seen']
      exact shadows.alike.mayEnd shown shadows.opened (fun _ _ => rfl) rfl may
    · refine shadows.finish erased visible (handler'.trans visible) fun data delivers' => ?_
      rw [delivers] at delivers'
      cases delivers'
  | some data =>
    have read := Task.read_of_delivered delivers
    cases op with
    | session id op =>
      cases read
      cases seen
      obtain rfl : op' = .session own .read := by
        rcases Op.seen_cases seen' with same | ⟨_, _, _, _, written⟩
        · exact same.symm
        · cases written
      have opened := socketOpen_of_mayEnd delivers may
      obtain ⟨data', more⟩ := Segmenter.without_prefix frames_prompt delete n
        (d.buffer own ++ (d.arriving own).flatten) data
      have handler' : (handlerOf (.session own .read) (.ok data')).seen own =
          (handlerOf (.session own .read) (.ok data)).seen own := by
        simp only [handlerOf, Task.seen, if_true]
      refine ⟨j, _, .ok data', here', shadows.opened opened, handler', ?_⟩
      refine shadows.finish erased visible (handler'.trans visible) fun data'' delivers' => ?_
      rw [delivers] at delivers'
      cases delivers'
      exact ⟨known_of_socketOpen opened, data', if_pos rfl, more⟩
    | _ => cases read

theorem Shadows.buffer (shadows : d.Shadows own delete n t) :
    t.buffer own = frames.without delete n (d.buffer own) := by
  have none := shadows.bytes 0
  rwa [List.take_zero, List.take_zero, List.flatten_nil, List.append_nil, List.append_nil] at none

theorem Shadows.begun (shadows : d.Shadows own delete n t) :
    App.Shadows own delete n { d with rest := none } { t with rest := none } :=
  { shadows with alike := { shadows.alike with rest := rfl } }

theorem Shadows.resume {rest : Rest} (shadows : d.Shadows own delete n t)
    (foreign : rest ≠ .decode own) (handled : d.resume env rest = some d') :
    ∃ t', t.resume env rest = some t' ∧ d'.Shadows own delete n t' := by
  obtain ⟨t', handled', alike⟩ := (shadows.alike.resume foreign).next handled
  exact ⟨t', handled', shadows.moved (resume_leaves foreign handled) (resume_leaves foreign handled')
    alike shadows.opened fun _ _ same => same⟩

-- The turn of the loop of the session: it has expired, it waits for more, or it has found a frame.
inductive Turned (env : Env) (own : Nat) (d : App) : App → Prop
  | expired (gone : d.sessions[own]? = none) : Turned env own d d
  | waits {session : IpcSession} (here : d.sessions[own]? = some session)
      (waiting : frames.cut session.rxbuf = none)
      (stays : tryDecode session.rxbuf .unset = some (false, session.rxbuf, .unset)) :
      Turned env own d ((d.setSession own session).initiate (.session own .read))
  | found {session : IpcSession} {f : Frame} {size : Nat} {t : App}
      (here : d.sessions[own]? = some session)
      (found : frames.cut session.rxbuf = some (f, size))
      (handled : d.handleFrame env own { session with rxbuf := session.rxbuf.drop size } f =
        some t) : Turned env own d t

theorem turned_of_resume (handled : d.resume env (.decode own) = some t) : d.Turned env own t := by
  simp only [App.resume] at handled
  split at handled
  next gone =>
    cases handled
    exact .expired gone
  next session here =>
    cases decoded : tryDecode session.rxbuf .unset with
    | none => simp [App.decode, decoded] at handled
    | some result =>
      obtain ⟨found, rxbuf, f⟩ := result
      rcases tryDecode_cases decoded with ⟨rfl, size, cut, rfl⟩ | ⟨rfl, waiting, rfl, rfl⟩
      · rw [decode_found decoded] at handled
        exact .found here cut handled
      · rw [decode_waits decoded] at handled
        cases handled
        exact .waits here waiting decoded

theorem Alike.lookup_some (alike : d.Alike own t) {session : IpcSession}
    (here : d.sessions[own]? = some session) : ∃ session', t.sessions[own]? = some session' := by
  rcases alike.lookup own with ⟨gone, _⟩ | ⟨_, session', _, here', _⟩
  · rw [here] at gone
    cases gone
  · exact ⟨session', here'⟩

theorem Shadows.expired (shadows : d.Shadows own delete n t) (gone : d.sessions[own]? = none) :
    t.resume env (.decode own) = some t := by
  rcases shadows.alike.lookup own with ⟨_, gone'⟩ | ⟨_, _, here, _⟩
  · simp only [App.resume, gone']
  · rw [gone] at here
    cases here

theorem Shadows.waits {session : IpcSession} (shadows : d.Shadows own delete n t)
    (here : d.sessions[own]? = some session) (waiting : frames.cut session.rxbuf = none)
    (stays : tryDecode session.rxbuf .unset = some (false, session.rxbuf, .unset)) :
    frames.cut (t.buffer own) = none ∧ ∃ t', t.resume env (.decode own) = some t' ∧
      ((d.setSession own session).initiate (.session own .read)).Shadows own delete n t' := by
  obtain ⟨session', here'⟩ := shadows.alike.lookup_some here
  have buffer := shadows.buffer
  rw [buffer_eq here, buffer_eq here', frames.without_none delete n waiting] at buffer
  have stays' : frames.cut session'.rxbuf = none ∧
      tryDecode session'.rxbuf .unset = some (false, session'.rxbuf, .unset) := by
    rw [buffer]
    split
    next => exact ⟨rfl, rfl⟩
    next => exact ⟨waiting, stays⟩
  have alike : (d.setSession own session).Alike own (t.setSession own session') :=
    shadows.alike.setSession own (absurd rfl)
  have started : App.Alike own ((d.setSession own session).initiate (.session own .read))
      ((t.setSession own session').initiate (.session own .read)) := alike.initiate rfl
  have left := setSession_own_leaves (List.getElem?_eq_some_iff.mp here).1 session
  have left' := setSession_own_leaves (List.getElem?_eq_some_iff.mp here').1 session'
  refine ⟨by rw [buffer_eq here']; exact stays'.1, (t.setSession own session').initiate _, ?_,
    shadows.moved { left with } { left' with } started ?_ ?_⟩
  · simp only [App.resume, here', decode_waits stays'.2]
  · rw [← socketOpen_eq here, ← socketOpen_eq here']
    exact shadows.opened
  · intro more more' same
    rwa [buffer_eq here, buffer_eq here'] at same

-- The buffer of the second daemon begins with the frame, where it was not deleted.
theorem Shadows.kept {f : Frame} {size : Nat} (shadows : d.Shadows own delete n t)
    (found : frames.cut (d.buffer own) = some (f, size)) (kept : delete n = false) :
    frames.cut (t.buffer own) = some (f, size) ∧
      ∀ more more', t.buffer own ++ more' = frames.without delete n (d.buffer own ++ more) →
        (t.buffer own).drop size ++ more' =
          frames.without delete (n + 1) ((d.buffer own).drop size ++ more) := by
  have cut : frames.cut (t.buffer own) = some (f, size) := by
    rw [shadows.buffer]
    exact (Segmenter.without_kept frames_prompt found kept).1
  refine ⟨cut, fun more more' same => ?_⟩
  have rest := (Segmenter.without_kept frames_prompt (frames.cut_append more found) kept).2
  rw [← List.drop_append_of_le_length (frames.cut_le cut), same, rest,
    List.drop_append_of_le_length (frames.cut_le found)]

theorem Shadows.found {session : IpcSession} {f : Frame} {size : Nat}
    (shadows : d.Shadows own delete n t) (here : d.sessions[own]? = some session)
    (found : frames.cut session.rxbuf = some (f, size)) (kept : delete n = false)
    (handled : d.handleFrame env own { session with rxbuf := session.rxbuf.drop size } f = some d') :
    frames.cut (t.buffer own) = some (f, size) ∧ ∃ t', t.resume env (.decode own) = some t' ∧
      d'.Shadows own delete (n + 1) t' := by
  obtain ⟨session', here'⟩ := shadows.alike.lookup_some here
  obtain ⟨cut, bytes⟩ := shadows.kept (by rw [buffer_eq here]; exact found) kept
  refine ⟨cut, ?_⟩
  rw [buffer_eq here, buffer_eq here'] at bytes
  rw [buffer_eq here'] at cut
  let rest : IpcSession := { session with rxbuf := session.rxbuf.drop size }
  let rest' : IpcSession := { session' with rxbuf := session'.rxbuf.drop size }
  have both : Matched own (d.handleFrame env own rest f) (t.handleFrame env own rest' f) :=
    shadows.alike.handleFrame own (absurd rfl) f
  obtain ⟨t', handled', alike⟩ := both.next handled
  have left := handleFrame_leaves (List.getElem?_eq_some_iff.mp here).1 handled
  have left' := handleFrame_leaves (List.getElem?_eq_some_iff.mp here').1 handled'
  refine ⟨t', ?_, shadows.moved left left' alike ?_ ?_⟩
  · simp only [App.resume, here', decode_found (tryDecode_cut cut .unset).1]
    exact handled'
  · simp only [rest', ← socketOpen_eq here, ← socketOpen_eq here']
    exact shadows.opened
  · rw [buffer_eq here, buffer_eq here']
    exact bytes

-- An inert frame that was deleted leaves nothing behind.
theorem Shadows.deleted {session : IpcSession} {f : Frame} {size : Nat}
    (shadows : d.Shadows own delete n t) (here : d.sessions[own]? = some session)
    (found : frames.cut session.rxbuf = some (f, size)) (deleted : delete n = true)
    (left : Leaves own (session.rxbuf.drop size) session.sockOpen d d') (alike : d.Alike own d') :
    d'.Shadows own delete (n + 1) t := by
  refine shadows.moved left (.quiet rfl rfl) (alike.symm.trans shadows.alike) ?_ ?_
  · rw [← socketOpen_eq here]
    exact shadows.opened
  · intro more more' same
    rw [buffer_eq here] at same
    rw [same, frames.without_deleted (frames.cut_append more found) deleted,
      List.drop_append_of_le_length (frames.cut_le found)]

end App

end ExnGs.Daemon
