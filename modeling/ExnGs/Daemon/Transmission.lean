import ExnGs.Daemon.Accounting

set_option autoImplicit false

-- In which connection a packet is transmitted. Over a serial port it can be a later one than the one
-- it was accepted in, over TCP it cannot.
namespace ExnGs.Daemon

open Proto SpacePacket Machine

def Event.transmitted : Event → List (Nat × TxPacket)
  | .link (.start (.write generation packet)) => [(generation, packet)]
  | _ => []

-- What is written was accepted in the generation of the write.
def LinkEvent.SendsOwn : LinkEvent → Prop
  | .start (.write generation packet) => packet.accepted = generation
  | _ => True

namespace SerialLink

-- The queue holds packets of this generation, and none when the link is closed.
structure Fresh (link : SerialLink) : Prop where
  current : ∀ packet ∈ link.txQueue, packet.accepted = link.generation
  closed : link.opened = false → link.txQueue = []

structure FreshTurn (turn : SerialLink × List LinkEvent) : Prop where
  fresh : turn.1.Fresh
  own : ∀ event ∈ turn.2, event.SendsOwn

variable {link : SerialLink} {turn : SerialLink × List LinkEvent}

theorem Fresh.started (fresh : link.Fresh) (started : link.Started turn) : FreshTurn turn := by
  cases started with
  | busy => exact ⟨fresh, by simp⟩
  | resolving closed =>
    have empty := fresh.closed closed
    exact ⟨⟨by simp [empty], fun _ => empty⟩, by simp [LinkEvent.SendsOwn]⟩
  | failed closed =>
    have empty := fresh.closed closed
    exact ⟨⟨by simp [empty], fun _ => empty⟩, by simp [LinkEvent.SendsOwn]⟩
  | opened closed =>
    have empty := fresh.closed closed
    exact ⟨⟨by simp [empty], fun _ => empty⟩, by simp [LinkEvent.SendsOwn]⟩

theorem freshTurn_stop (link : SerialLink) : FreshTurn link.stop :=
  ⟨⟨by simp [stop], by simp [stop]⟩, by simp [stop, LinkEvent.SendsOwn]⟩

theorem Fresh.handled (fresh : link.Fresh) {op : LinkOp} {result : Completion}
    (handled : link.Handled op result turn) : FreshTurn turn := by
  cases handled with
  | stale => exact ⟨fresh, by simp⟩
  | failed => exact ⟨⟨by simp, by simp⟩, by simp [LinkEvent.SendsOwn]⟩
  | resolved => exact ⟨fresh, by simp [LinkEvent.SendsOwn]⟩
  | connected => exact ⟨⟨fresh.current, by simp⟩, by simp [LinkEvent.SendsOwn]⟩
  | read reads =>
    refine ⟨fresh, ?_⟩
    rcases reads with rfl | rfl <;> split <;> simp [LinkEvent.SendsOwn]
  | written writes =>
    have current : ∀ packet ∈ link.txQueue.tail, packet.accepted = link.generation :=
      fun packet member => fresh.current packet (List.mem_of_mem_tail member)
    refine ⟨⟨current, fun closed => ?_⟩, ?_⟩
    · simp only at closed ⊢
      rw [fresh.closed closed, List.tail_nil]
    · rcases writes with rfl | ⟨later, member, rfl⟩
      · simp
      · simpa [LinkEvent.SendsOwn] using current later member

theorem Fresh.written (fresh : link.Fresh) {packet : TxPacket}
    (current : link.opened = true → packet.accepted = link.generation)
    (written : link.Written packet turn) : FreshTurn turn := by
  cases written with
  | dropped => exact ⟨fresh, by simp [LinkEvent.SendsOwn]⟩
  | behind opened =>
    have own : ∀ p ∈ link.txQueue ++ [packet], p.accepted = link.generation := by
      simp only [List.forall_mem_append, List.forall_mem_singleton]
      exact ⟨fresh.current, current opened⟩
    exact ⟨⟨own, by simp [opened]⟩, by simp [LinkEvent.SendsOwn]⟩
  | first opened =>
    exact ⟨⟨by simpa using current opened, by simp [opened]⟩,
      by simpa [LinkEvent.SendsOwn] using current opened⟩

end SerialLink

namespace Device

-- A closure that finds the link open finds the generation it was posted in.
def FindsCurrent (dev : Device) : Task → Prop
  | .transmit packet => dev.link.opened = true → packet.accepted = dev.link.generation
  | _ => True

instance : ∀ dev task, Decidable (FindsCurrent dev task)
  | dev, .transmit packet =>
    inferInstanceAs (Decidable (dev.link.opened = true → packet.accepted = dev.link.generation))
  | _, .accepted _ | _, .session _ _ _ | _, .send _ _ | _, .link _ _ => .isTrue trivial

structure SentOwn (dev : Device) : Prop where
  fresh : dev.link.Fresh
  own : ∀ sent ∈ dev.log.flatMap Event.transmitted, sent.2.accepted = sent.1

theorem sentOwn_turn (lib : CcsdsPack) (dev : Device) {turn : SerialLink × List LinkEvent}
    (own : ∀ sent ∈ dev.log.flatMap Event.transmitted, sent.2.accepted = sent.1)
    (fresh : SerialLink.FreshTurn turn) : (dev.turn lib turn).SentOwn := by
  constructor
  · rw [turn_link]
    exact fresh.fresh
  · rw [turn_observed (fun _ _ => rfl)]
    simp only [List.forall_mem_append, List.mem_flatMap]
    refine ⟨by simpa using own, ?_⟩
    rintro sent ⟨event, member, here⟩
    have owned := fresh.own event member
    unfold Event.transmitted at here
    split at here
    next same =>
      cases same
      rw [List.mem_singleton.mp here]
      exact owned
    next => cases here

theorem SentOwn.step {env : Env} {dev dev' : Device} (sent : dev.SentOwn)
    (step : Step env FindsCurrent dev dev') : dev'.SentOwn := by
  cases step with
  | start => exact sentOwn_turn _ _ sent.own (sent.fresh.started (SerialLink.start_cases _ _))
  | stop => exact sentOwn_turn _ _ sent.own (SerialLink.freshTurn_stop _)
  | @write data f _ long type =>
    have posted : SerialLink.FreshTurn (dev.link, dev.link.writeBytes data) := by
      rw [SerialLink.writeBytes, if_neg long]
      exact ⟨sent.fresh, by simp [LinkEvent.SendsOwn]⟩
    have wrote := sentOwn_turn env.lib dev sent.own posted
    exact ⟨wrote.fresh, by simpa [announce, Event.transmitted] using wrote.own⟩
  | finish => exact ⟨sent.fresh, sent.own⟩
  | handle => exact sentOwn_turn _ _ sent.own (sent.fresh.handled (SerialLink.handler_cases _ _ _))
  | transmit tasks allowed =>
    exact sentOwn_turn _ _ sent.own (sent.fresh.written allowed (SerialLink.runWrite_cases _ _))

end Device

def LinkOp.setsUp (generation : Nat) : LinkOp → Bool
  | .resolve g | .connect g => g = generation
  | _ => false

def Task.setsUp (generation : Nat) : Task → Bool
  | .link op _ => op.setsUp generation
  | _ => false

namespace Device

-- How many operations are setting up a connection of a generation, their handlers included.
def pending (dev : Device) (generation : Nat) : Nat :=
  dev.ops.countP (LinkOp.setsUp generation) + dev.tasks.countP (Task.setsUp generation)

/-- Over TCP one operation at a time sets up a connection, none once it is open, and no packet is
waiting behind one. -/
structure OverTcp (dev : Device) : Prop where
  tcp : dev.link.isTcp = true
  unborn : ∀ generation, dev.link.generation < generation → dev.pending generation = 0
  single : dev.pending dev.link.generation ≤ 1
  settled : dev.link.opened = true → dev.pending dev.link.generation = 0
  ordered : dev.tasks.Pairwise fun first later =>
    first.setsUp dev.link.generation = true → later.waiting = []
  current : dev.link.opened = true → ∀ packet ∈ dev.tasks.flatMap Task.waiting,
    packet.accepted = dev.link.generation

variable {dev : Device}

theorem no_setsUp {generation : Nat} (none : dev.pending generation = 0) :
    ∀ task ∈ dev.tasks, task.setsUp generation = false := by
  have tasks : dev.tasks.countP (Task.setsUp generation) = 0 := by
    unfold pending at none
    omega
  simpa using List.countP_eq_zero.mp tasks

theorem posted_setsUp (events : List LinkEvent) (generation : Nat) :
    (events.flatMap LinkEvent.posted).countP (Task.setsUp generation) = 0 := by
  rw [List.countP_eq_zero]
  simp only [List.mem_flatMap]
  rintro task ⟨event, _, here⟩
  cases event with
  | post packet =>
    rw [List.mem_singleton.mp here]
    simp [Task.setsUp]
  | _ => cases here

theorem pending_turn (lib : CcsdsPack) (dev : Device) (turn : SerialLink × List LinkEvent)
    (generation : Nat) :
    (dev.turn lib turn).pending generation =
      dev.pending generation +
        (turn.2.flatMap LinkEvent.started).countP (LinkOp.setsUp generation) := by
  rw [pending, turn_ops, turn_tasks, List.countP_append, List.countP_append, posted_setsUp, pending]
  omega

theorem OverTcp.advance (overTcp : dev.OverTcp) (lib : CcsdsPack) {turn : SerialLink × List LinkEvent}
    (tcp : turn.1.isTcp = true) (next : turn.1.generation = dev.link.generation + 1)
    (closed : turn.1.opened = false) (posts : turn.2.flatMap LinkEvent.posted = [])
    (starts : ∀ generation, (turn.2.flatMap LinkEvent.started).countP (LinkOp.setsUp generation) ≤
      if generation = dev.link.generation + 1 then 1 else 0) : (dev.turn lib turn).OverTcp := by
  -- Nothing of the new generation existed before.
  have before := overTcp.unborn
  constructor
  · rw [turn_link, tcp]
  · intro generation later
    rw [turn_link, next] at later
    have none := before generation (by omega)
    have few := starts generation
    rw [if_neg (by omega)] at few
    rw [pending_turn]
    omega
  · rw [turn_link, next, pending_turn]
    have none := before (dev.link.generation + 1) (by omega)
    have few := starts (dev.link.generation + 1)
    rw [if_pos rfl] at few
    omega
  · rw [turn_link, closed]
    simp
  · rw [turn_link, next, turn_tasks, posts, List.append_nil]
    have fresh := no_setsUp (before (dev.link.generation + 1) (by omega))
    refine List.pairwise_of_forall_mem_list fun first member later _ sets => ?_
    rw [fresh first member] at sets
    contradiction
  · rw [turn_link, closed]
    simp

theorem OverTcp.run (overTcp : dev.OverTcp) (lib : CcsdsPack) {task : Task} {rest : List Task}
    (tasks : dev.tasks = task :: rest) {turn : SerialLink × List LinkEvent}
    (tcp : turn.1.isTcp = dev.link.isTcp) (same : turn.1.generation = dev.link.generation)
    (posts : turn.2.flatMap LinkEvent.posted = [])
    (starts : ∀ generation, (turn.2.flatMap LinkEvent.started).countP (LinkOp.setsUp generation) ≤
      if task.setsUp generation then 1 else 0)
    (opens : turn.1.opened = true → dev.link.opened = true ∨
      task.setsUp dev.link.generation = true ∧
        (turn.2.flatMap LinkEvent.started).countP (LinkOp.setsUp dev.link.generation) = 0) :
    ({ dev with tasks := rest }.turn lib turn).OverTcp := by
  -- The operation that a handler starts takes the place of its own.
  have popped : ∀ generation, dev.pending generation =
      ({ dev with tasks := rest } : Device).pending generation +
        if task.setsUp generation then 1 else 0 := by
    intro generation
    simp only [pending, tasks, List.countP_cons]
    omega
  have fewer : ∀ generation,
      ({ dev with tasks := rest }.turn lib turn).pending generation ≤ dev.pending generation := by
    intro generation
    rw [pending_turn, popped]
    exact Nat.add_le_add_left (starts generation) _
  have ordered := overTcp.ordered
  rw [tasks, List.pairwise_cons] at ordered
  have remaining : ({ dev with tasks := rest }.turn lib turn).tasks = rest := by
    rw [turn_tasks, posts, List.append_nil]
  constructor
  · rw [turn_link, tcp, overTcp.tcp]
  · intro generation later
    rw [turn_link, same] at later
    have none := overTcp.unborn generation later
    have fewer := fewer generation
    omega
  · rw [turn_link, same]
    exact (fewer _).trans overTcp.single
  · rw [turn_link, same]
    intro opened
    rcases opens opened with opened | ⟨sets, none⟩
    · have none := overTcp.settled opened
      have fewer := fewer dev.link.generation
      omega
    · have single := overTcp.single
      rw [popped, if_pos sets] at single
      rw [pending_turn, none]
      omega
  · rw [turn_link, same, remaining]
    exact ordered.2
  · rw [turn_link, same, remaining]
    intro opened packet waiting
    -- Either the link was open before, or it opens now, and then no packet waits behind the task.
    rcases opens opened with opened | ⟨sets, _⟩
    · refine overTcp.current opened packet ?_
      rw [tasks, List.flatMap_cons]
      exact List.mem_append_right _ waiting
    · obtain ⟨later, member, here⟩ := List.mem_flatMap.mp waiting
      rw [ordered.1 later member sets] at here
      cases here

theorem OverTcp.handled (overTcp : dev.OverTcp) (lib : CcsdsPack) {op : LinkOp} {result : Completion}
    {rest : List Task} (tasks : dev.tasks = .link op result :: rest)
    {turn : SerialLink × List LinkEvent} (handled : dev.link.Handled op result turn) :
    ({ dev with tasks := rest }.turn lib turn).OverTcp := by
  cases handled with
  | stale => exact overTcp.run lib tasks rfl rfl rfl (by simp) (fun opened => .inl opened)
  | failed => exact overTcp.run lib tasks rfl rfl rfl (by simp [LinkEvent.started]) (by simp)
  | resolved =>
    refine overTcp.run lib tasks rfl rfl rfl (fun generation => ?_) (fun opened => .inl opened)
    simp [LinkEvent.started, LinkOp.setsUp, Task.setsUp, List.countP_cons]
  | connected =>
    refine overTcp.run lib tasks rfl rfl rfl (by simp [LinkEvent.started, LinkOp.setsUp]) (fun _ => ?_)
    exact .inr ⟨by simp [Task.setsUp, LinkOp.setsUp], by simp [LinkEvent.started, LinkOp.setsUp]⟩
  | read reads =>
    rcases reads with rfl | rfl <;> split <;>
      exact overTcp.run lib tasks rfl rfl rfl (by simp [LinkEvent.started, LinkOp.setsUp])
        (fun opened => .inl opened)
  | written writes =>
    rcases writes with rfl | ⟨_, _, rfl⟩ <;>
      exact overTcp.run lib tasks rfl rfl rfl (by simp [LinkEvent.started, LinkOp.setsUp])
        (fun opened => .inl opened)

theorem OverTcp.written (overTcp : dev.OverTcp) (lib : CcsdsPack) {packet : TxPacket}
    {rest : List Task} (tasks : dev.tasks = .transmit packet :: rest)
    {turn : SerialLink × List LinkEvent} (written : dev.link.Written packet turn) :
    ({ dev with tasks := rest }.turn lib turn).OverTcp := by
  cases written with
  | dropped | behind =>
    exact overTcp.run lib tasks rfl rfl rfl (by simp [LinkEvent.started]) (fun opened => .inl opened)
  | first =>
    exact overTcp.run lib tasks rfl rfl rfl (by simp [LinkEvent.started, LinkOp.setsUp])
      (fun opened => .inl opened)

theorem OverTcp.started (overTcp : dev.OverTcp) (lib : CcsdsPack)
    {turn : SerialLink × List LinkEvent} (started : dev.link.Started turn) :
    (dev.turn lib turn).OverTcp := by
  cases started with
  | busy => exact overTcp
  | resolving closed =>
    refine overTcp.advance lib overTcp.tcp rfl closed rfl (fun generation => ?_)
    simp [LinkEvent.started, LinkOp.setsUp, List.countP_cons, eq_comm]
  | failed _ serial =>
    rw [overTcp.tcp] at serial
    contradiction
  | opened _ serial =>
    rw [overTcp.tcp] at serial
    contradiction

theorem OverTcp.post (overTcp : dev.OverTcp) (data : List UInt8) (opened : dev.link.opened = true) :
    ({ dev with tasks := dev.tasks ++ [.transmit ⟨data, dev.link.generation⟩] } : Device).OverTcp := by
  have same : ∀ generation, ({ dev with
      tasks := dev.tasks ++ [.transmit ⟨data, dev.link.generation⟩] } : Device).pending generation =
        dev.pending generation := by
    intro generation
    simp [pending, List.countP_append, Task.setsUp]
  refine ⟨overTcp.tcp, fun generation later => ?_, ?_, fun opened => ?_, ?_, fun opened => ?_⟩
  · exact (same generation).trans (overTcp.unborn generation later)
  · exact (same _).trans_le overTcp.single
  · exact (same _).trans (overTcp.settled opened)
  · have idle := no_setsUp (overTcp.settled opened)
    refine List.pairwise_append.mpr ⟨overTcp.ordered, List.pairwise_singleton _ _, ?_⟩
    intro first member _ _ sets
    have none := idle first member
    rw [none] at sets
    contradiction
  · rw [List.flatMap_append, List.forall_mem_append]
    exact ⟨overTcp.current opened, by simp [Task.waiting]⟩

theorem OverTcp.write (overTcp : dev.OverTcp) (lib : CcsdsPack) {data : List UInt8} {f : Frame}
    (opened : dev.link.opened = true) (long : data ≠ []) :
    ((dev.turn lib (dev.link, dev.link.writeBytes data)).announce data f).OverTcp := by
  have posted := overTcp.post data opened
  rw [SerialLink.writeBytes, if_neg long]
  exact ⟨posted.tcp, posted.unborn, posted.single, posted.settled, posted.ordered, posted.current⟩

theorem OverTcp.step {env : Env} {may : Device → Task → Prop} {dev' : Device} (overTcp : dev.OverTcp)
    (step : Step env may dev dev') : dev'.OverTcp := by
  cases step with
  | start => exact overTcp.started _ (SerialLink.start_cases _ _)
  | stop => exact overTcp.advance _ overTcp.tcp rfl rfl rfl (by simp [SerialLink.stop, LinkEvent.started])
  | write opened long => exact overTcp.write _ opened long
  | @finish before after op result ops ends =>
    have moved : ∀ generation, ({ dev with
        ops := before ++ after
        tasks := dev.tasks ++ [.link op result] } : Device).pending generation =
          dev.pending generation := by
      intro generation
      have same : (Task.link op result).setsUp generation = op.setsUp generation := rfl
      simp only [pending, ops, List.countP_append, List.countP_cons, List.countP_nil]
      rw [same]
      omega
    refine ⟨overTcp.tcp, fun generation later => ?_, ?_, fun opened => ?_, ?_, ?_⟩
    · exact (moved generation).trans (overTcp.unborn generation later)
    · exact (moved _).trans_le overTcp.single
    · exact (moved _).trans (overTcp.settled opened)
    · refine List.pairwise_append.mpr ⟨overTcp.ordered, List.pairwise_singleton _ _, ?_⟩
      intro _ _ later member _
      rw [List.mem_singleton.mp member]
      rfl
    · simpa [Task.waiting] using overTcp.current
  | handle tasks => exact overTcp.handled _ tasks (SerialLink.handler_cases _ _ _)
  | transmit tasks => exact overTcp.written _ tasks (SerialLink.runWrite_cases _ _)

theorem OverTcp.findsCurrent {env : Env} {dev' : Device} (overTcp : dev.OverTcp)
    (step : Step env (fun _ _ => True) dev dev') : Step env FindsCurrent dev dev' := by
  cases step with
  | start => exact .start
  | stop => exact .stop
  | write opened long type => exact .write opened long type
  | finish ops ends => exact .finish ops ends
  | handle tasks => exact .handle tasks trivial
  | transmit tasks =>
    exact .transmit tasks fun opened => overTcp.current opened _ (by simp [tasks, Task.waiting])

end Device

namespace App

/-- Every packet given to `async_write` was accepted in the generation that writes it. -/
def Isolated (d : App) : Prop :=
  ∀ sent ∈ d.history.flatMap Event.transmitted, sent.2.accepted = sent.1

theorem transmitted_other {event : Event} (other : event.isDevice = false) :
    event.transmitted = [] := by
  cases event <;> first | rfl | cases other

theorem isolated_of_sentOwn {d : App} (sent : d.device.SentOwn) : d.Isolated := by
  have own := sent.own
  rwa [d.observed_device fun _ => transmitted_other] at own

/-- A packet is transmitted only in the generation it was accepted in, as long as a closure that finds
the link open finds the generation it was posted in; over TCP it always does. -/
theorem transmits_isolated (env : Env) (transport : Transport) :
    (∀ d, Reaches (step env) (Meets Device.FindsCurrent) (initial transport) d → d.Isolated) ∧
    (transport.isTcp = true →
      ∀ d, Reaches (step env) (fun _ _ => True) (initial transport) d → d.Isolated) := by
  have fresh : (initial transport).device.SentOwn :=
    ⟨⟨by simp [initial, device], fun _ => rfl⟩, by simp [initial, device]⟩
  constructor
  · intro d path
    exact isolated_of_sentOwn (device_invariant (fun _ _ sent step => sent.step step) fresh path)
  · intro tcp d path
    have idle : (initial transport).device.OverTcp :=
      ⟨tcp, fun _ _ => rfl, Nat.zero_le 1, fun _ => rfl, .nil, by simp [initial, device]⟩
    have preserved : ∀ dev dev' : Device, dev.OverTcp ∧ dev.SentOwn →
        Device.Step env (fun _ _ => True) dev dev' → dev'.OverTcp ∧ dev'.SentOwn := by
      intro dev dev' both step
      exact ⟨both.1.step step, both.2.step (both.1.findsCurrent step)⟩
    have path := path.mono fun d a _ => d.meets_any a
    exact isolated_of_sentOwn (device_invariant preserved ⟨idle, fresh⟩ path).2

end App

theorem transmits_isolated_bench :
    (∃ d, run (App.step benchEnv) (App.initial benchPort)
        (clientSends [] [packetSend] ++ [.run]) = some d ∧
      d.history.flatMap Event.transmitted = [(1, { bytes := benchPacket, accepted := 1 })] ∧
      d.Isolated) ∧
    ∃ d, run (App.step benchEnv) (App.initial benchTcp)
        (clientSends [.finish 1 (.ok []), .run, .finish 1 (.ok []), .run] [packetSend] ++ [.run]) = some d ∧
      d.history.flatMap Event.transmitted = [(1, { bytes := benchPacket, accepted := 1 })] ∧
      d.Isolated := by
  constructor
  · have ran : (run (App.step benchEnv) (App.initial benchPort)
        (clientSends [] [packetSend] ++ [.run])).map
          (fun d => d.history.flatMap Event.transmitted) =
        some [(1, { bytes := benchPacket, accepted := 1 })] := by decide +kernel
    obtain ⟨d, reached, sent⟩ := Option.map_eq_some_iff.mp ran
    exact ⟨d, reached, sent, (App.transmits_isolated benchEnv benchPort).1 d
      (reaches_of_along (by decide +kernel) reached)⟩
  · have ran : (run (App.step benchEnv) (App.initial benchTcp)
        (clientSends [.finish 1 (.ok []), .run, .finish 1 (.ok []), .run] [packetSend] ++ [.run])).map
          (fun d => d.history.flatMap Event.transmitted) =
        some [(1, { bytes := benchPacket, accepted := 1 })] := by decide +kernel
    obtain ⟨d, reached, sent⟩ := Option.map_eq_some_iff.mp ran
    exact ⟨d, reached, sent, (App.transmits_isolated benchEnv benchTcp).2 rfl d
      (reaches_of_along (by decide +kernel) reached)⟩

-- A packet and the command to reconnect come in one read. The port is open again when the closure of
-- the packet runs, and the packet is written in generation 3.
theorem transmits_after_reconnect :
    ¬ ∀ d, Reaches (App.step benchEnv) (fun _ _ => True) (App.initial benchPort) d → d.Isolated := by
  intro isolated
  have ran : (run (App.step benchEnv) (App.initial benchPort)
      (clientSends [] [packetSend, command "RECONNECT"] ++ [.run])).map
        (fun d => d.history.flatMap Event.transmitted) =
      some [(3, { bytes := benchPacket, accepted := 1 })] := by decide +kernel
  obtain ⟨d, reached, sent⟩ := Option.map_eq_some_iff.mp ran
  have own := isolated d (reaches_of_along (by decide +kernel) reached)
  rw [App.Isolated, sent] at own
  exact absurd (own _ (List.mem_singleton_self _)) (by decide)

end ExnGs.Daemon
