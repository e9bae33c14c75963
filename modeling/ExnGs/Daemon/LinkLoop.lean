import ExnGs.Daemon.SerialLink
import ExnGs.Lib.EventLoop

set_option autoImplicit false

-- The device link by itself: its methods are called at any time, the closures it posts run in any order,
-- and its operations end in any order and in any way, also those that were cancelled.
namespace ExnGs.Daemon

open EventLoop Machine

def LinkOp.attempts : LinkOp → Bool
  | .resolve _ | .connect _ => true
  | _ => false

def LinkOp.reads : LinkOp → Bool
  | .read _ => true
  | _ => false

def LinkOp.writes : LinkOp → Bool
  | .write _ _ => true
  | _ => false

def LinkEvent.packets : LinkEvent → List TxPacket
  | .post packet => [packet]
  | _ => []

-- A call of a method, with what becomes of the serial port if `start` opens it.
inductive LinkCall
  | start (serial : SerialOpen)
  | stop
  | write (data : List UInt8)
  deriving DecidableEq, Repr

def SerialLink.call (link : SerialLink) : LinkCall → SerialLink × List LinkEvent
  | .start serial => link.start fun _ => serial
  | .stop => link.stop
  | .write data => (link, link.writeBytes data)

/-- `history` is what the link has done, with the generation it did it in; no code reads it. -/
structure LinkRun where
  link : SerialLink
  history : List (Nat × LinkEvent) := []
  deriving DecidableEq, Repr

namespace LinkRun

def effects (r : LinkRun) (turn : SerialLink × List LinkEvent) :
    Effects LinkRun LinkOp TxPacket where
  state :=
    { link := turn.1, history := r.history ++ turn.2.map fun event => (turn.1.generation, event) }
  started := turn.2.flatMap LinkEvent.started
  posted := turn.2.flatMap LinkEvent.packets

def party : Party LinkRun LinkOp TxPacket Completion LinkCall where
  call := fun _ r call => r.effects (r.link.call call)
  closure := fun r packet => r.effects (r.link.runWrite packet)
  mayEnd := fun _ _ _ => true
  handler := fun r op result => some (r.effects (r.link.handler op result))

end LinkRun

abbrev LinkLoop := Loop LinkRun LinkOp TxPacket Completion

namespace LinkLoop

def idle (transport : Transport) : LinkLoop where
  state := { link := { toTransport := transport } }

def link (l : LinkLoop) : SerialLink := l.state.link

def ops (l : LinkLoop) : List LinkOp := l.pending.map Pending.op

end LinkLoop

namespace SerialLink

-- How many operations of a kind are outstanding for the present generation.
def live (link : SerialLink) (kind : LinkOp → Bool) (ops : List LinkOp) : Nat :=
  ops.countP fun op => op.generation = link.generation && kind op

inductive Phase (link : SerialLink) (attempts reads writes : Nat) : Prop
  | opened (opened : link.opened = true) (settled : link.connecting = false)
      (attempts : attempts = 0) (reads : reads = 1)
      (writes : writes = if link.txQueue = [] then 0 else 1)
  | connecting (closed : link.opened = false) (connecting : link.connecting = true)
      (empty : link.txQueue = []) (attempts : attempts = 1) (reads : reads = 0) (writes : writes = 0)
  -- What an error has left outstanding may still be of the present generation.
  | closed (closed : link.opened = false) (settled : link.connecting = false)
      (empty : link.txQueue = []) (attempts : attempts = 0) (reads : reads ≤ 1) (writes : writes ≤ 1)

/-- The operations outstanding are those that the fields of the link speak of. -/
structure Sound (link : SerialLink) (ops : List LinkOp) : Prop where
  bounded : ∀ op ∈ ops, op.generation ≤ link.generation
  phase : link.Phase (link.live LinkOp.attempts ops) (link.live LinkOp.reads ops)
    (link.live LinkOp.writes ops)

variable {link : SerialLink} {ops : List LinkOp}

theorem live_perm (link : SerialLink) (kind : LinkOp → Bool) {ops ops' : List LinkOp}
    (perm : ops.Perm ops') : link.live kind ops = link.live kind ops' :=
  perm.countP_eq _

theorem live_append (link : SerialLink) (kind : LinkOp → Bool) (ops more : List LinkOp) :
    link.live kind (ops ++ more) = link.live kind ops + link.live kind more :=
  List.countP_append

theorem live_current {op : LinkOp} (current : op.generation = link.generation)
    (kind : LinkOp → Bool) (ops : List LinkOp) :
    link.live kind (op :: ops) = link.live kind ops + if kind op then 1 else 0 := by
  simp [live, List.countP_cons, current]

theorem live_single {op : LinkOp} (current : op.generation = link.generation)
    (kind : LinkOp → Bool) : link.live kind [op] = if kind op then 1 else 0 := by
  rw [live_current current, live, List.countP_nil, Nat.zero_add]

theorem live_stale {op : LinkOp} (stale : op.generation ≠ link.generation) (kind : LinkOp → Bool)
    (ops : List LinkOp) : link.live kind (op :: ops) = link.live kind ops := by
  simp [live, stale]

theorem live_same {link link' : SerialLink} (same : link'.generation = link.generation)
    (kind : LinkOp → Bool) (ops : List LinkOp) : link'.live kind ops = link.live kind ops := by
  rw [live, same, live]

theorem live_fresh {link link' : SerialLink} (bounded : ∀ op ∈ ops, op.generation ≤ link.generation)
    (next : link'.generation = link.generation + 1) (kind : LinkOp → Bool) :
    link'.live kind ops = 0 := by
  rw [live, List.countP_eq_zero]
  intro op member current
  have older := bounded op member
  simp only [Bool.and_eq_true, decide_eq_true_eq] at current
  omega

theorem Sound.perm {ops' : List LinkOp} (sound : link.Sound ops) (perm : ops.Perm ops') :
    link.Sound ops' := by
  refine ⟨fun op member => sound.bounded op (perm.mem_iff.mpr member), ?_⟩
  simp only [← link.live_perm _ perm]
  exact sound.phase

theorem Sound.dropped {op : LinkOp} (sound : link.Sound (op :: ops))
    (stale : op.generation ≠ link.generation) : link.Sound ops := by
  refine ⟨fun op member => sound.bounded op (List.mem_cons_of_mem _ member), ?_⟩
  have phase := sound.phase
  simpa only [live_stale stale] using phase

-- A new generation begins with the operations its turn has started.
theorem Sound.renewed {link' : SerialLink} (sound : link.Sound ops)
    (next : link'.generation = link.generation + 1) {more : List LinkOp}
    (own : ∀ op ∈ more, op.generation = link'.generation)
    (phase : link'.Phase (link'.live LinkOp.attempts more) (link'.live LinkOp.reads more)
      (link'.live LinkOp.writes more)) : link'.Sound (ops ++ more) := by
  constructor
  · intro op member
    rcases List.mem_append.mp member with old | new
    · have := sound.bounded op old
      omega
    · exact Nat.le_of_eq (own op new)
  · simpa only [live_append, live_fresh sound.bounded next, Nat.zero_add] using phase

-- The generation goes on, with the same operations or with one more.
theorem Sound.kept {link' : SerialLink} (bounded : ∀ op ∈ ops, op.generation ≤ link.generation)
    (same : link'.generation = link.generation)
    (phase : link'.Phase (link.live LinkOp.attempts ops) (link.live LinkOp.reads ops)
      (link.live LinkOp.writes ops)) : link'.Sound ops := by
  refine ⟨fun op member => same ▸ bounded op member, ?_⟩
  simpa only [live_same same] using phase

theorem Sound.begun {link' : SerialLink} (op : LinkOp)
    (bounded : ∀ op ∈ ops, op.generation ≤ link.generation)
    (same : link'.generation = link.generation) (current : op.generation = link'.generation)
    (phase : link'.Phase (link.live LinkOp.attempts ops + if op.attempts then 1 else 0)
      (link.live LinkOp.reads ops + if op.reads then 1 else 0)
      (link.live LinkOp.writes ops + if op.writes then 1 else 0)) : link'.Sound (ops ++ [op]) := by
  constructor
  · intro other member
    rcases List.mem_append.mp member with old | new
    · exact same ▸ bounded other old
    · rw [List.mem_singleton.mp new]
      exact Nat.le_of_eq current
  · simpa only [live_append, live_single current, ← live_same same] using phase

theorem Sound.started {turn : SerialLink × List LinkEvent} (sound : link.Sound ops)
    (started : link.Started turn) :
    turn.1.Sound (ops ++ turn.2.flatMap LinkEvent.started) := by
  have empty : link.opened = false → link.txQueue = [] := by
    intro shut
    cases sound.phase with
    | opened opened => rw [opened] at shut; contradiction
    | connecting _ _ empty => exact empty
    | closed _ _ empty => exact empty
  cases started with
  | busy =>
    rw [List.flatMap_nil, List.append_nil]
    exact sound
  | resolving closed tcp detail =>
    refine sound.renewed rfl ?_ ?_
    · simp [LinkEvent.started, LinkOp.generation]
    · refine .connecting closed rfl (empty closed) ?_ ?_ ?_ <;> exact live_single rfl _
  | failed closed serial err =>
    refine sound.renewed rfl ?_ ?_
    · simp [LinkEvent.started]
    · exact .closed closed rfl (empty closed) rfl (Nat.zero_le _) (Nat.zero_le _)
  | opened closed serial =>
    refine sound.renewed rfl ?_ ?_
    · simp [LinkEvent.started, LinkOp.generation]
    · refine .opened rfl rfl (live_single rfl _) (live_single rfl _) ?_
      rw [if_pos (empty closed)]
      exact live_single rfl _

theorem Sound.stopped (sound : link.Sound ops) :
    link.stop.1.Sound (ops ++ link.stop.2.flatMap LinkEvent.started) := by
  refine sound.renewed rfl ?_ ?_
  · simp [stop, LinkEvent.started]
  · exact .closed rfl rfl rfl rfl (Nat.zero_le _) (Nat.zero_le _)

theorem writeBytes_started (link : SerialLink) (data : List UInt8) :
    (link.writeBytes data).flatMap LinkEvent.started = [] := by
  rw [writeBytes]
  split <;> rfl

theorem Sound.posted (sound : link.Sound ops) (data : List UInt8) :
    link.Sound (ops ++ (link.writeBytes data).flatMap LinkEvent.started) := by
  rw [writeBytes_started, List.append_nil]
  exact sound

theorem Sound.open_phase (sound : link.Sound ops) (opened : link.opened = true) :
    link.connecting = false ∧ link.live LinkOp.attempts ops = 0 ∧ link.live LinkOp.reads ops = 1 ∧
      link.live LinkOp.writes ops = if link.txQueue = [] then 0 else 1 := by
  cases sound.phase with
  | opened _ settled attempts reads writes => exact ⟨settled, attempts, reads, writes⟩
  | connecting closed => rw [opened] at closed; contradiction
  | closed closed => rw [opened] at closed; contradiction

theorem Sound.written {packet : TxPacket} {turn : SerialLink × List LinkEvent}
    (sound : link.Sound ops) (written : link.Written packet turn) :
    turn.1.Sound (ops ++ turn.2.flatMap LinkEvent.started) := by
  cases written with
  | dropped closed =>
    rw [show [LinkEvent.discarded packet].flatMap LinkEvent.started = [] from rfl, List.append_nil]
    exact sound
  | behind opened busy =>
    obtain ⟨settled, attempts, reads, writes⟩ := sound.open_phase opened
    rw [if_neg busy] at writes
    rw [show [LinkEvent.queued link.generation packet].flatMap LinkEvent.started = [] from rfl,
      List.append_nil]
    refine .kept sound.bounded rfl (.opened opened settled attempts reads ?_)
    rw [if_neg (by simp)]
    exact writes
  | first opened idle =>
    obtain ⟨settled, attempts, reads, writes⟩ := sound.open_phase opened
    rw [if_pos idle] at writes
    refine .begun (.write link.generation packet) sound.bounded rfl rfl
      (.opened opened settled attempts reads ?_)
    simp [writes, LinkOp.writes]

theorem kind_single (op : LinkOp) : ((if op.attempts then 1 else 0) + if op.reads then 1 else 0) +
    (if op.writes then 1 else 0) = 1 := by
  cases op <;> rfl

theorem Sound.read {data : List UInt8} (bounded : ∀ op ∈ ops, op.generation ≤ link.generation)
    (phase : link.Phase (link.live LinkOp.attempts ops) (link.live LinkOp.reads ops + 1)
      (link.live LinkOp.writes ops)) :
    link.Sound (ops ++ ((if data = [] then [] else [LinkEvent.onBytes link.generation data]) ++
      link.doRead link.generation).flatMap LinkEvent.started) := by
  have bytes : (if data = [] then [] else [LinkEvent.onBytes link.generation data]).flatMap
      LinkEvent.started = [] := by
    split <;> rfl
  rw [List.flatMap_append, bytes, List.nil_append]
  cases opened : link.opened with
  | true =>
    have next : link.doRead link.generation = [.start (.read link.generation)] := by
      simp [doRead, opened]
    rw [next]
    exact .begun (.read link.generation) bounded rfl rfl phase
  | false =>
    have next : link.doRead link.generation = [] := by simp [doRead, opened]
    rw [next, List.flatMap_nil, List.append_nil]
    refine .kept bounded rfl ?_
    cases phase with
    | opened shut => rw [opened] at shut; contradiction
    | connecting _ _ _ _ reads => contradiction
    | closed _ settled empty attempts reads writes =>
      exact .closed opened settled empty attempts (by omega) writes

theorem Sound.popped (bounded : ∀ op ∈ ops, op.generation ≤ link.generation)
    (phase : link.Phase (link.live LinkOp.attempts ops) (link.live LinkOp.reads ops)
      (link.live LinkOp.writes ops + 1)) :
    ({ link with txQueue := link.txQueue.tail } : SerialLink).Sound (ops ++
      (({ link with txQueue := link.txQueue.tail } : SerialLink).doWrite link.generation).flatMap
        LinkEvent.started) := by
  cases phase with
  | opened opened settled attempts reads writes =>
    have none : link.live LinkOp.writes ops = 0 := by split at writes <;> omega
    cases queue : link.txQueue.tail with
    | nil =>
      simp only [doWrite, ne_eq, not_true_eq_false, opened, Bool.true_eq_false, or_self, if_false,
        List.flatMap_nil, List.append_nil]
      exact .kept bounded rfl (.opened rfl settled attempts reads none)
    | cons packet later =>
      simp only [doWrite, ne_eq, not_true_eq_false, opened, Bool.true_eq_false, or_self, if_false]
      refine .begun (.write link.generation packet) bounded rfl rfl
        (.opened rfl settled attempts reads ?_)
      simp [none, LinkOp.writes]
  | connecting _ _ _ _ _ writes => contradiction
  | closed closed settled empty attempts reads writes =>
    simp only [doWrite, closed, or_true, if_true, List.flatMap_nil, List.append_nil, empty,
      List.tail_nil]
    exact .kept bounded rfl (.closed rfl settled rfl attempts reads (by omega))

theorem Sound.completed {op : LinkOp} {result : Completion} {turn : SerialLink × List LinkEvent}
    (sound : link.Sound (op :: ops)) (current : op.generation = link.generation)
    (completed : link.Completed op result turn) :
    turn.1.Sound (ops ++ turn.2.flatMap LinkEvent.started) := by
  have bounded : ∀ other ∈ ops, other.generation ≤ link.generation :=
    fun other member => sound.bounded other (List.mem_cons_of_mem _ member)
  have phase := sound.phase
  simp only [live_current current] at phase
  cases completed with
  | failed err =>
    have kind := kind_single op
    rw [show [LinkEvent.onError err].flatMap LinkEvent.started = [] from rfl, List.append_nil]
    refine .kept bounded rfl ?_
    cases phase with
    | opened _ _ attempts reads writes =>
      have few : (if link.txQueue = [] then 0 else 1) ≤ 1 := by split <;> omega
      exact .closed rfl rfl rfl (by omega) (by omega) (by omega)
    | connecting _ _ _ attempts reads writes =>
      exact .closed rfl rfl rfl (by omega) (by omega) (by omega)
    | closed _ _ _ attempts reads writes => exact .closed rfl rfl rfl (by omega) (by omega) (by omega)
  | resolved => exact .begun (.connect link.generation) bounded rfl rfl phase
  | connected =>
    refine .begun (.read link.generation) bounded rfl rfl ?_
    simp only [LinkOp.attempts, LinkOp.reads, LinkOp.writes] at phase
    cases phase with
    | opened _ _ attempts => contradiction
    | connecting _ _ empty attempts reads writes =>
      refine .opened rfl rfl (Nat.succ.inj attempts) (congrArg Nat.succ reads) ?_
      rw [if_pos empty]
      exact writes
    | closed _ _ _ attempts => contradiction
  | read => exact Sound.read bounded phase
  | written => exact Sound.popped bounded phase

end SerialLink

namespace LinkLoop

-- Every step is a turn of the link, whose handler's operation is outstanding no more, or none.
theorem step_turn {motive : LinkRun → List LinkOp → Prop} {l t : LinkLoop}
    {a : EventLoop.Action Completion LinkCall}
    (finish : ∀ i result, a = .finish i result → motive l.state l.ops)
    (call : ∀ c, a = .call c → motive (l.state.effects (l.link.call c)).state
      (l.ops ++ (l.link.call c).2.flatMap LinkEvent.started))
    (closure : ∀ i packet, a = .closure i → motive (l.state.effects (l.link.runWrite packet)).state
      (l.ops ++ (l.link.runWrite packet).2.flatMap LinkEvent.started))
    (handler : ∀ i op result ops, a = .handler i →
      l.pending[i]? = some { op, result := some result } → l.ops.Perm (op :: ops) →
      motive (l.state.effects (l.link.handler op result)).state
        (ops ++ (l.link.handler op result).2.flatMap LinkEvent.started))
    (taken : step LinkRun.party l a = .next t) : motive t.state t.ops := by
  refine EventLoop.step_turn finish call closure ?_ taken
  intro i op result before after e ran here all _ handled
  cases handled
  refine handler i op result _ ran here ?_
  rw [show l.ops = before ++ op :: after from all]
  exact List.perm_middle

theorem sound_step {l t : LinkLoop} {a : EventLoop.Action Completion LinkCall}
    (sound : l.link.Sound l.ops) (taken : step LinkRun.party l a = .next t) :
    t.link.Sound t.ops := by
  refine step_turn (motive := fun r ops => r.link.Sound ops) (fun _ _ _ => sound) ?_ ?_ ?_ taken
  · intro c _
    cases c with
    | start serial => exact sound.started (l.link.start_cases fun _ => serial)
    | stop => exact sound.stopped
    | write data => exact sound.posted data
  · exact fun _ packet _ => sound.written (l.link.runWrite_cases packet)
  · intro i op result ops _ _ perm
    by_cases current : op.generation = l.link.generation
    · exact (sound.perm perm).completed current (SerialLink.handler_current current result)
    · rw [SerialLink.handler_stale current, List.flatMap_nil, List.append_nil]
      exact (sound.perm perm).dropped current

theorem sound_idle (transport : Transport) : (idle transport).link.Sound (idle transport).ops :=
  ⟨by simp [ops, idle], .closed rfl rfl rfl rfl (Nat.zero_le _) (Nat.zero_le _)⟩

theorem sound_reached {transport : Transport} {guard : LinkLoop → EventLoop.Action Completion LinkCall → Prop}
    {l : LinkLoop} (path : Reaches (step LinkRun.party) guard (idle transport) l) :
    l.link.Sound l.ops :=
  path.invariant (fun _ _ _ sound _ => sound_step sound) (sound_idle transport)

-- How many operations of a kind and of the present generation have not had their handlers run.
def outstanding (l : LinkLoop) (kind : LinkOp → Bool) : Nat := l.link.live kind l.ops

/-- The flags and the queue of the link tell which operations of the present generation are
outstanding, and those of earlier generations end without any effect. -/
structure Coherent (l : LinkLoop) : Prop where
  exclusive : ¬ (l.link.opened = true ∧ l.link.connecting = true)
  attempting : l.link.connecting = true ↔ l.outstanding LinkOp.attempts = 1
  reading : l.link.opened = true → l.outstanding LinkOp.reads = 1
  writing : l.link.opened = true →
    l.outstanding LinkOp.writes = if l.link.txQueue = [] then 0 else 1
  cleared : l.link.opened = false → l.link.txQueue = []
  late : ∀ op result, op.generation ≠ l.link.generation →
    LinkRun.party.handler l.state op result = some { state := l.state }

theorem coherent_of_sound {l : LinkLoop} (sound : l.link.Sound l.ops) : l.Coherent := by
  have late : ∀ op result, op.generation ≠ l.link.generation →
      LinkRun.party.handler l.state op result = some { state := l.state } := by
    intro op result stale
    change some (l.state.effects (l.link.handler op result)) = _
    rw [SerialLink.handler_stale stale, LinkRun.effects, List.map_nil, List.append_nil]
    rfl
  cases sound.phase with
  | opened opened settled attempts reads writes =>
    exact ⟨by simp [settled], by simp [settled, outstanding, attempts], fun _ => reads,
      fun _ => writes, by simp [opened], late⟩
  | connecting closed connecting empty attempts =>
    exact ⟨by simp [closed], by simp [connecting, outstanding, attempts], by simp [closed],
      by simp [closed], fun _ => empty, late⟩
  | closed closed settled empty attempts =>
    exact ⟨by simp [closed], by simp [settled, outstanding, attempts], by simp [closed],
      by simp [closed], fun _ => empty, late⟩

theorem link_coherent {transport : Transport} {l : LinkLoop}
    (path : Reaches (step LinkRun.party) (fun _ _ => True) (idle transport) l) : l.Coherent :=
  coherent_of_sound (sound_reached path)

-- Connected over TCP, with a write under way and a packet behind it.
def sending : List (EventLoop.Action Completion LinkCall) :=
  [.call (.start .opened), .finish 0 (.ok []), .handler 0, .finish 0 (.ok []), .handler 0,
    .call (.write [1]), .call (.write [2]), .closure 0, .closure 0]

theorem link_coherent_sending : ∃ l : LinkLoop,
    run (step LinkRun.party) (idle { isTcp := true }) sending = some l ∧
      (l.link.opened, l.link.txQueue.length) = (true, 2) ∧ l.Coherent := by
  have ran : (run (step LinkRun.party) (idle { isTcp := true }) sending).map
      (fun l => ((link l).opened, (link l).txQueue.length)) = some (true, 2) := by decide
  obtain ⟨l, reached, queued⟩ := Option.map_eq_some_iff.mp ran
  exact ⟨l, reached, queued, link_coherent (reaches_of_along (by decide) reached)⟩

end LinkLoop

end ExnGs.Daemon
