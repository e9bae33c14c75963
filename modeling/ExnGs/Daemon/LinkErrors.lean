import ExnGs.Daemon.LinkLoop

set_option autoImplicit false

-- How often the device link reports an error between two changes of its generation, that is, between a
-- `start` past its guard or a `stop` and the next one.
namespace ExnGs.Daemon

open EventLoop Machine

def LinkEvent.isError : LinkEvent → Bool
  | .onError _ => true
  | _ => false

namespace SerialLink

/-- The generations in which errors were reported, among them the present one once the link has failed
in it. -/
structure Once (link : SerialLink) (ops : List LinkOp) (reported : List Nat) : Prop where
  distinct : reported.Nodup
  bounded : ∀ generation ∈ reported, generation ≤ link.generation
  silent : link.opened = true ∨ link.connecting = true → link.generation ∉ reported
  spoken : link.opened = false → link.connecting = false →
    ∀ op ∈ ops, op.generation = link.generation → link.generation ∈ reported

def reports (turn : SerialLink × List LinkEvent) : List Nat :=
  (turn.2.filter LinkEvent.isError).map fun _ => turn.1.generation

variable {link : SerialLink} {ops : List LinkOp} {reported : List Nat}

theorem Once.fresh (once : link.Once ops reported) : link.generation + 1 ∉ reported := by
  intro member
  have := once.bounded _ member
  omega

theorem Once.renewed {link' : SerialLink} (once : link.Once ops reported)
    (bounded : ∀ op ∈ ops, op.generation ≤ link.generation)
    (next : link'.generation = link.generation + 1) {more : List LinkOp}
    (idle : link'.opened = false → link'.connecting = false → more = []) :
    link'.Once (ops ++ more) reported := by
  refine ⟨once.distinct, fun g member => ?_, fun _ => next ▸ once.fresh, ?_⟩
  · have := once.bounded g member
    omega
  · intro closed settled op member current
    rw [idle closed settled, List.append_nil] at member
    have := bounded op member
    omega

-- Without a report, what was still outstanding has stood for what is outstanding now.
theorem Once.kept {link' : SerialLink} {ops' : List LinkOp} (once : link.Once ops reported)
    (same : link'.generation = link.generation)
    (up : link'.opened = true ∨ link'.connecting = true →
      link.opened = true ∨ link.connecting = true)
    (down : link'.opened = false → link'.connecting = false →
      (link.opened = false ∧ link.connecting = false) ∧
        ∀ op' ∈ ops', op'.generation = link.generation →
          ∃ op ∈ ops, op.generation = link.generation) :
    link'.Once ops' reported := by
  refine ⟨once.distinct, fun g member => same ▸ once.bounded g member, ?_, ?_⟩
  · rw [same]
    exact fun active => once.silent (up active)
  · rw [same]
    intro closed settled op' member current
    obtain ⟨⟨closed, settled⟩, standing⟩ := down closed settled
    obtain ⟨op, member, current⟩ := standing op' member current
    exact once.spoken closed settled op member current

theorem Once.failed {link' : SerialLink} {ops' : List LinkOp} (once : link.Once ops reported)
    (same : link'.generation = link.generation) (closed : link'.opened = false)
    (settled : link'.connecting = false) (first : link.generation ∉ reported) :
    link'.Once ops' (reported ++ [link.generation]) := by
  refine ⟨?_, fun g member => ?_, by simp [closed, settled], fun _ _ _ _ _ => by simp [same]⟩
  · rw [← List.concat_eq_append, List.nodup_concat]
    exact ⟨first, once.distinct⟩
  · rcases List.mem_append.mp member with old | new
    · exact same ▸ once.bounded g old
    · rw [List.mem_singleton.mp new]
      exact Nat.le_of_eq same.symm

theorem Once.started {turn : SerialLink × List LinkEvent} (once : link.Once ops reported)
    (sound : link.Sound ops) (started : link.Started turn) :
    turn.1.Once (ops ++ turn.2.flatMap LinkEvent.started) (reported ++ reports turn) := by
  cases started with
  | busy =>
    rw [List.flatMap_nil, List.append_nil]
    change link.Once ops (reported ++ [])
    rwa [List.append_nil]
  | resolving closed tcp detail =>
    change Once _ _ (reported ++ [])
    rw [List.append_nil]
    exact once.renewed sound.bounded rfl (by simp)
  | failed closed serial err =>
    have renewed : ({ link with generation := link.generation + 1, connecting := false } :
        SerialLink).Once (ops ++ []) reported := once.renewed sound.bounded rfl (fun _ _ => rfl)
    exact renewed.failed rfl closed rfl once.fresh
  | opened closed serial =>
    change Once _ _ (reported ++ [])
    rw [List.append_nil]
    exact once.renewed sound.bounded rfl (by simp)

theorem Once.stopped (once : link.Once ops reported) (sound : link.Sound ops) :
    link.stop.1.Once (ops ++ link.stop.2.flatMap LinkEvent.started)
      (reported ++ reports link.stop) := by
  change Once _ (ops ++ []) (reported ++ [])
  rw [List.append_nil reported]
  exact once.renewed sound.bounded rfl (fun _ _ => rfl)

theorem Once.written {packet : TxPacket} {turn : SerialLink × List LinkEvent}
    (once : link.Once ops reported) (written : link.Written packet turn) :
    turn.1.Once (ops ++ turn.2.flatMap LinkEvent.started) (reported ++ reports turn) := by
  have quiet : reports turn = [] := by cases written <;> rfl
  rw [quiet, List.append_nil]
  cases written with
  | dropped closed =>
    change Once _ (ops ++ []) reported
    rw [List.append_nil]
    exact once
  | behind opened | first opened =>
    exact once.kept rfl id fun closed _ => absurd (opened.symm.trans closed) (by simp)

theorem Completed.quiet {op : LinkOp} {data : List UInt8} {turn : SerialLink × List LinkEvent}
    (completed : link.Completed op (.ok data) turn) : reports turn = [] := by
  cases completed with
  | resolved => rfl
  | connected => rfl
  | read =>
    rcases link.doRead_cases link.generation with next | next <;> rw [next] <;> split <;> rfl
  | written =>
    rcases doWrite_cases { link with txQueue := link.txQueue.tail } link.generation with
      next | ⟨_, _, next⟩ <;> rw [next] <;> rfl

theorem Once.posted (once : link.Once ops reported) (data : List UInt8) :
    link.Once (ops ++ (link.writeBytes data).flatMap LinkEvent.started)
      (reported ++ reports (link, link.writeBytes data)) := by
  have quiet : reports (link, link.writeBytes data) = [] := by
    rw [writeBytes]
    split <;> rfl
  rw [writeBytes_started, quiet, List.append_nil, List.append_nil]
  exact once

/-- The first failure of a generation finds the link open or connecting. -/
theorem Once.completed {op : LinkOp} {result : Completion} {turn : SerialLink × List LinkEvent}
    (once : link.Once (op :: ops) reported) (sound : link.Sound (op :: ops))
    (current : op.generation = link.generation)
    (first : ∀ message, result = .error message → link.opened = true ∨ link.connecting = true)
    (completed : link.Completed op result turn) :
    turn.1.Once (ops ++ turn.2.flatMap LinkEvent.started) (reported ++ reports turn) := by
  cases result with
  | error message =>
    cases completed
    exact once.failed rfl rfl rfl (once.silent (first _ rfl))
  | ok data =>
    rw [completed.quiet, List.append_nil]
    have standing : ∀ ops' : List LinkOp, ∀ op' ∈ ops', op'.generation = link.generation →
        ∃ op' ∈ op :: ops, op'.generation = link.generation :=
      fun _ _ _ _ => ⟨op, List.mem_cons_self, current⟩
    cases completed with
    | connected =>
      refine once.kept rfl (fun _ => ?_) (by simp)
      have phase := sound.phase
      simp only [live_current current, LinkOp.attempts] at phase
      cases phase with
      | opened opened => exact .inl opened
      | connecting _ connecting => exact .inr connecting
      | closed _ _ _ attempts => contradiction
    | resolved | read | written =>
      exact once.kept rfl id fun closed settled => ⟨⟨closed, settled⟩, standing _⟩

theorem Once.dropped {op : LinkOp} (once : link.Once (op :: ops) reported) :
    link.Once ops reported :=
  once.kept rfl id fun closed settled =>
    ⟨⟨closed, settled⟩, fun op' member current => ⟨op', List.mem_cons_of_mem _ member, current⟩⟩

theorem Once.perm {ops' : List LinkOp} (once : link.Once ops reported) (perm : ops.Perm ops') :
    link.Once ops' reported :=
  once.kept rfl id fun closed settled =>
    ⟨⟨closed, settled⟩, fun op' member current => ⟨op', perm.mem_iff.mpr member, current⟩⟩

end SerialLink

namespace LinkRun

def reported (r : LinkRun) : List Nat :=
  (r.history.filter fun event => event.2.isError).map Prod.fst

theorem reported_effects (r : LinkRun) (turn : SerialLink × List LinkEvent) :
    (r.effects turn).state.reported = r.reported ++ SerialLink.reports turn := by
  simp [reported, effects, SerialLink.reports, List.filter_map, Function.comp_def]

end LinkRun

namespace LinkLoop

-- The generations in which `on_error_` was invoked, once for each time.
def reported (l : LinkLoop) : List Nat := l.state.reported

def ReportsOnce (l : LinkLoop) : Prop := l.reported.Nodup

instance : DecidablePred ReportsOnce := fun _ => inferInstanceAs (Decidable (List.Nodup _))

-- A handler of the present generation that finds an error finds the link open or connecting.
def FirstFailure (l : LinkLoop) (a : EventLoop.Action Completion LinkCall) : Prop :=
  ∀ i op message, a = .handler i → l.pending[i]? = some { op, result := some (.error message) } →
    op.generation = l.link.generation → l.link.opened = true ∨ l.link.connecting = true

-- What the link has reported fits its fields and the operations outstanding.
def Consistent (l : LinkLoop) : Prop :=
  l.link.Sound l.ops ∧ l.link.Once l.ops l.reported

theorem once_step {l t : LinkLoop} {a : EventLoop.Action Completion LinkCall}
    (consistent : l.Consistent) (first : l.FirstFailure a)
    (taken : step LinkRun.party l a = .next t) : t.link.Once t.ops t.reported := by
  obtain ⟨sound, once⟩ := consistent
  refine step_turn (motive := fun r ops => r.link.Once ops r.reported) (fun _ _ _ => once) ?_ ?_ ?_ taken
  · intro c _
    rw [LinkRun.reported_effects]
    cases c with
    | start serial => exact once.started sound (l.link.start_cases fun _ => serial)
    | stop => exact once.stopped sound
    | write data => exact once.posted data
  · intro _ packet _
    rw [LinkRun.reported_effects]
    exact once.written (l.link.runWrite_cases packet)
  · intro i op result ops handled here perm
    rw [LinkRun.reported_effects]
    by_cases current : op.generation = l.link.generation
    · refine (once.perm perm).completed (sound.perm perm) current ?_
        (SerialLink.handler_current current result)
      rintro message rfl
      exact first i op message handled here current
    · rw [SerialLink.handler_stale current, List.flatMap_nil, List.append_nil]
      change l.link.Once ops (l.reported ++ [])
      rw [List.append_nil]
      exact (once.perm perm).dropped

-- A second failure of one generation is reported like the first.
theorem reported_again {l : LinkLoop} {i : Nat} {op : LinkOp} {message : Text}
    (here : l.pending[i]? = some { op, result := some (.error message) })
    (current : op.generation = l.link.generation) :
    ∃ t : LinkLoop, step LinkRun.party l (.handler i) = .next t ∧
      t.reported = l.reported ++ [l.link.generation] := by
  refine ⟨l.after l.posted (l.pending.eraseIdx i)
    (l.state.effects (l.link.handler op (.error message))), ?_, ?_⟩
  · simp only [step, here]
    rfl
  change (l.state.effects (l.link.handler op (.error message))).state.reported = _
  rw [LinkRun.reported_effects]
  have completed := SerialLink.handler_current current (.error message)
  generalize l.link.handler op (.error message) = turn at completed
  cases completed
  rfl

theorem after_reportsOnce_iff {l : LinkLoop} {a : EventLoop.Action Completion LinkCall}
    (consistent : l.Consistent) :
    After (step LinkRun.party) ReportsOnce l a ↔ l.FirstFailure a := by
  constructor
  · rintro reports i op message rfl here current
    by_contra down
    obtain ⟨t, taken, again⟩ := reported_again here current
    have distinct := reports t taken
    simp only [not_or, Bool.not_eq_true] at down
    have spoken := consistent.2.spoken down.1 down.2 op
      (List.mem_map_of_mem (List.mem_of_getElem? here)) current
    rw [ReportsOnce, again, ← List.concat_eq_append, List.nodup_concat] at distinct
    exact distinct.1 spoken
  · exact fun first t taken => (once_step consistent first taken).distinct

theorem consistent_idle (transport : Transport) : (idle transport).Consistent :=
  ⟨sound_idle transport, ⟨List.nodup_nil, by simp [reported, LinkRun.reported, idle],
    fun _ => List.not_mem_nil, by simp [ops, idle]⟩⟩

/-- In every run the link reports at most one error in each generation after each step just as long as
no handler finds an error of a generation that has already failed. -/
theorem along_reportsOnce_iff (transport : Transport)
    (actions : List (EventLoop.Action Completion LinkCall)) :
    Along (step LinkRun.party) (After (step LinkRun.party) ReportsOnce) (idle transport) actions ↔
      Along (step LinkRun.party) FirstFailure (idle transport) actions :=
  along_iff (fun _ _ => after_reportsOnce_iff)
    (fun _ _ _ consistent first taken =>
      ⟨sound_step consistent.1 taken, once_step consistent first taken⟩)
    (consistent_idle transport) actions

-- A packet is being written when the device is unplugged: the read fails, and then the write that the
-- closing of the port has cancelled.
theorem reports_cancelled_write :
    ¬ ∀ actions, Along (step LinkRun.party) (After (step LinkRun.party) ReportsOnce)
      (idle { port := text "/dev/ttyACM0" }) actions := by
  intro once
  have run := once [.call (.start .opened), .call (.write [1]), .closure 0,
    .finish 0 (.error (text "End of file")), .handler 0,
    .finish 0 (.error (text "Operation canceled")), .handler 0]
  revert run
  decide +kernel

end LinkLoop

end ExnGs.Daemon
