import ExnGs.Daemon.Intake
import ExnGs.Daemon.Reception
import ExnGs.Lib.Epochs

set_option autoImplicit false

-- What the reads of the device link bring, and what of it comes to the framer, generation by generation.
namespace ExnGs.Daemon

open Proto SpacePacket Framer Machine Epochs

-- The bytes that a task hands to the link, in a generation.
def Task.reading (g : Nat) : Task → Option (List UInt8)
  | .link (.read generation) (.ok data) => if generation = g then some data else none
  | _ => none

def Task.Unread : Task → Prop
  | .link (.read _) (.ok _) => False
  | _ => True

-- A packet that is handed on, with the generation of the bytes that complete it.
def Event.marked : Event → List (Nat × List UInt8)
  | .framed g packet => [(g, packet)]
  | _ => []

theorem Task.Posted.unread {task : Task} (posted : task.Posted) (g : Nat) : task.reading g = none := by
  cases task with
  | send | transmit => rfl
  | _ => cases posted

theorem Task.Unread.unheard {task : Task} (unread : task.Unread) (g : Nat) : task.reading g = none := by
  cases task with
  | link op result =>
    cases op with
    | read generation =>
      cases result with
      | error message => rfl
      | ok data => cases unread
    | _ => rfl
  | _ => rfl

namespace Device

def marks (dev : Device) : List (Nat × List UInt8) := dev.log.flatMap Event.marked

-- A step that brings nothing to the framer.
structure Unheard (dev dev' : Device) : Prop where
  chunks : ∀ g, dev'.chunks g = dev.chunks g
  marks : dev'.marks = dev.marks
  later : dev.link.generation ≤ dev'.link.generation

variable {env : Env} {lib : CcsdsPack} {dev dev' : Device}

theorem unheard_turn {turn : SerialLink × List LinkEvent}
    (none : ∀ event ∈ turn.2, event.delivers = false) (later : dev.link.generation ≤ turn.1.generation) :
    dev.Unheard (dev.turn lib turn) := by
  have log := (turn_undelivered lib dev none).2
  refine ⟨fun g => ?_, ?_, ?_⟩
  · have nothing : (turn.2.map Event.link).flatMap (Event.chunk g) = [] := by
      rw [List.flatMap_map, List.flatMap_eq_nil_iff]
      exact fun event member => chunk_undelivered (none event member) g
    rw [Device.chunks, log, List.flatMap_append, nothing, List.append_nil, Device.chunks]
  · have nothing : (turn.2.map Event.link).flatMap Event.marked = [] := by
      rw [List.flatMap_map, List.flatMap_eq_nil_iff]
      exact fun _ _ => rfl
    rw [Device.marks, log, List.flatMap_append, nothing, List.append_nil, Device.marks]
  · rw [turn_link]
    exact later

theorem handled_unheard {op : LinkOp} {result : Completion} {turn : SerialLink × List LinkEvent}
    (unread : (Task.link op result).Unread) (handled : dev.link.Handled op result turn) :
    dev.Unheard (dev.turn lib turn) := by
  cases handled with
  | read => cases unread
  | written writes =>
    rcases writes with rfl | ⟨_, _, rfl⟩ <;>
      exact unheard_turn (by simp [LinkEvent.delivers]) (Nat.le_refl _)
  | _ => exact unheard_turn (by simp [LinkEvent.delivers]) (Nat.le_refl _)

theorem step_unheard (step : Step env (fun _ task => task.Unread) dev dev') : dev.Unheard dev' := by
  cases step with
  | start =>
    have started := dev.link.start_cases env.device
    generalize dev.link.start env.device = turn at started
    cases started with
    | busy => exact unheard_turn (by simp) (Nat.le_refl _)
    | _ => exact unheard_turn (by simp [LinkEvent.delivers]) (Nat.le_succ _)
  | stop => exact unheard_turn (by simp [SerialLink.stop, LinkEvent.delivers]) (Nat.le_succ _)
  | @write data f _ long =>
    rw [SerialLink.writeBytes, if_neg long]
    have posted : dev.Unheard (dev.turn env.lib (dev.link, [.post ⟨data, dev.link.generation⟩])) :=
      unheard_turn (by simp [LinkEvent.delivers]) (Nat.le_refl _)
    refine ⟨fun g => ?_, ?_, posted.later⟩
    · rw [← posted.chunks g]
      simp [Device.announce, Device.chunks, Event.chunk]
    · rw [← posted.marks]
      simp [Device.announce, Device.marks, Event.marked]
  | finish => exact ⟨fun _ => rfl, rfl, Nat.le_refl _⟩
  | @handle op result rest tasks allowed =>
    have popped : dev.Unheard { dev with tasks := rest } := ⟨fun _ => rfl, rfl, Nat.le_refl _⟩
    have handled := @handled_unheard env.lib { dev with tasks := rest } _ _ _ allowed
      (SerialLink.handler_cases dev.link op result)
    exact ⟨fun g => (handled.chunks g).trans (popped.chunks g), handled.marks.trans popped.marks,
      handled.later⟩
  | @transmit packet rest tasks =>
    have written := dev.link.runWrite_cases packet
    generalize dev.link.runWrite packet = turn at written
    have ran : Unheard { dev with tasks := rest } ({ dev with tasks := rest }.turn env.lib turn) := by
      cases written <;> exact unheard_turn (by simp [LinkEvent.delivers]) (Nat.le_refl _)
    exact ⟨ran.chunks, ran.marks, ran.later⟩

-- Bytes come to the framer, and the packets that they complete are handed on.
theorem onBytes_heard (dev : Device) (generation : Nat) (data : List UInt8) :
    (∀ g, ((dev.onEvent lib (.onBytes generation data)).chunks g).flatten =
      (dev.chunks g).flatten ++ if generation = g then data else []) ∧
    (dev.onEvent lib (.onBytes generation data)).marks = dev.marks ++
      (pushBytes lib.declaredPacketSize dev.framer data).2.map fun packet => (generation, packet) := by
  refine ⟨fun g => ?_, ?_⟩
  · rw [chunks_onBytes, List.flatten_append]
    split <;> simp
  · generalize pushed : (pushBytes lib.declaredPacketSize dev.framer data).2 = packets
    have log : (dev.onEvent lib (.onBytes generation data)).log =
        dev.log ++ .link (.onBytes generation data) :: packets.map (.framed generation) := by
      rw [← pushed]
      simp [onEvent]
    rw [marks, log, List.flatMap_append, List.flatMap_cons, List.flatMap_map, List.map_eq_flatMap]
    rfl

/-- A read of the present generation has ended. -/
theorem turn_fetched (dev : Device) (data : List UInt8) :
    let after := dev.turn lib (dev.link.handler (.read dev.link.generation) (.ok data))
    (∀ g, (after.chunks g).flatten =
      (dev.chunks g).flatten ++ if dev.link.generation = g then data else []) ∧
    (∃ packets : List (List UInt8), after.marks =
      dev.marks ++ packets.map fun packet => (dev.link.generation, packet)) ∧
    after.link.generation = dev.link.generation := by
  intro after
  have read := @SerialLink.handler_current dev.link (.read dev.link.generation) rfl (.ok data)
  have same : after = dev.turn lib (dev.link.handler (.read dev.link.generation) (.ok data)) := rfl
  generalize dev.link.handler (.read dev.link.generation) (.ok data) = turn at read same
  cases read with
  | read =>
    rw [same]
    have later : ∀ dev' : Device, dev'.link = dev.link →
        dev'.Unheard (dev'.turn lib (dev.link, dev.link.doRead dev.link.generation)) := by
      intro dev' link
      rcases dev.link.doRead_cases dev.link.generation with none | one
      · rw [none]
        exact unheard_turn (by simp) (Nat.le_of_eq (by rw [link]))
      · rw [one]
        exact unheard_turn (by simp [LinkEvent.delivers]) (Nat.le_of_eq (by rw [link]))
    by_cases empty : data = []
    · rw [if_pos empty, List.nil_append]
      have rest := later dev rfl
      refine ⟨fun g => ?_, ⟨[], ?_⟩, by rw [turn_link]⟩
      · rw [rest.chunks, empty, ite_self, List.append_nil]
      · rw [rest.marks, List.map_nil, List.append_nil]
    · rw [if_neg empty]
      obtain ⟨chunks, marks⟩ := @onBytes_heard lib dev dev.link.generation data
      have rest := later (dev.onEvent lib (.onBytes dev.link.generation data)) rfl
      refine ⟨fun g => ?_, ⟨(pushBytes lib.declaredPacketSize dev.framer data).2, ?_⟩, by rw [turn_link]⟩
      · rw [← chunks g, ← rest.chunks g]
        rfl
      · rw [← marks, ← rest.marks]
        rfl

/-- Packets are handed on in ascending generations, none of them to come. -/
structure Marked (dev : Device) : Prop where
  ascending : Ascending dev.marks
  past : ∀ x ∈ dev.marks, x.1 ≤ dev.link.generation

theorem Marked.unheard (marked : dev.Marked) (unheard : dev.Unheard dev') : dev'.Marked := by
  refine ⟨?_, ?_⟩
  · rw [unheard.marks]
    exact marked.ascending
  · rw [unheard.marks]
    exact fun x member => Nat.le_trans (marked.past x member) unheard.later

theorem Marked.read (marked : dev.Marked) (data : List UInt8) :
    (dev.turn lib (dev.link.handler (.read dev.link.generation) (.ok data))).Marked := by
  obtain ⟨-, ⟨packets, marks⟩, generation⟩ := @turn_fetched lib dev data
  have here : ∀ x ∈ packets.map fun packet => (dev.link.generation, packet), x.1 = dev.link.generation := by
    intro x member
    obtain ⟨packet, -, rfl⟩ := List.mem_map.mp member
    rfl
  refine ⟨?_, ?_⟩
  · rw [Ascending, marks, List.pairwise_append]
    refine ⟨marked.ascending, List.pairwise_of_forall_mem_list fun x mine y yours => ?_,
      fun x before y yours => ?_⟩
    · rw [here x mine, here y yours]
    · rw [here y yours]
      exact marked.past x before
  · rw [marks, generation]
    intro x member
    rcases List.mem_append.mp member with before | mine
    · exact marked.past x before
    · exact Nat.le_of_eq (here x mine)

theorem Marked.step {may : Device → Task → Prop} (marked : dev.Marked) (step : Step env may dev dev') :
    dev'.Marked := by
  cases step with
  | start => exact marked.unheard (step_unheard .start)
  | stop => exact marked.unheard (step_unheard .stop)
  | write opened long type => exact marked.unheard (step_unheard (.write opened long type))
  | finish => exact marked.unheard ⟨fun _ => rfl, rfl, Nat.le_refl _⟩
  | transmit tasks => exact marked.unheard (step_unheard (.transmit tasks trivial))
  | @handle op result rest tasks allowed =>
    by_cases unread : (Task.link op result).Unread
    · exact marked.unheard (step_unheard (.handle tasks unread))
    · -- Only the end of a read of the present generation brings anything.
      have popped : ({ dev with tasks := rest } : Device).Marked := ⟨marked.ascending, marked.past⟩
      cases op with
      | read generation =>
        cases result with
        | error message => exact absurd trivial unread
        | ok data =>
          by_cases current : generation = dev.link.generation
          · subst current
            exact popped.read data
          · have stale : (LinkOp.read generation).generation ≠ dev.link.generation := current
            rw [SerialLink.handler_stale stale]
            exact popped.unheard (unheard_turn (by simp) (Nat.le_refl _))
      | _ => exact absurd trivial unread

end Device

namespace App

variable {env : Env} {d t : App}

theorem framesOwn_initial {lib : CcsdsPack} (header : DependsOnHeader lib.declaredPacketSize)
    (transport : Transport) : (initial transport).device.FramesOwn header := by
  have empty : (segmenter header).split [] = ([], []) :=
    (segmenter header).split_none (turn_nil lib.declaredPacketSize)
  refine ⟨fun _ => ?_, fun _ _ => rfl, fun some => absurd rfl some⟩
  change [] = packets ((segmenter header).split []).1
  rw [empty, packets_nil]

def marks (d : App) : List (Nat × List UInt8) := d.history.flatMap Event.marked

-- The bytes of reads that have ended and wait for their handlers.
def reading (d : App) (g : Nat) : List (List UInt8) := d.ready.filterMap (Task.reading g)

-- The bytes that an action brings from the device, in a generation.
def fetches (d : App) (g : Nat) : Action → List UInt8
  | .finish i result => ((d.outstanding[i]?.bind fun op => (handlerOf op result).reading g)).getD []
  | .run => []

-- A step adds to the tasks only what handlers post.
def Grows (d t : App) : Prop := ∃ more, t.ready = d.ready ++ more ∧ ∀ task ∈ more, task.Posted

theorem Grows.same (ready : t.ready = d.ready) : d.Grows t :=
  ⟨[], by rw [ready, List.append_nil], fun _ member => by cases member⟩

theorem Grows.reading (grows : d.Grows t) (g : Nat) : t.reading g = d.reading g := by
  obtain ⟨more, ready, posted⟩ := grows
  have none : more.filterMap (Task.reading g) = [] :=
    List.filterMap_eq_nil_iff.mpr fun task member => (posted task member).unread g
  rw [App.reading, ready, List.filterMap_append, none, List.append_nil, App.reading]

theorem resume_grows {rest : Rest} (handled : d.resume env rest = some t) : d.Grows t := by
  cases rest with
  | boot =>
    simp only [resume] at handled
    split at handled
    next =>
      cases handled
      exact .same rfl
    next => exact (onLink_posts handled).ready
  | greet id =>
    cases handled
    have greeted := (posts_send d id { type := .Hello, payload := packString (text "exn_gsd") }).trans
      (posts_send _ id (d.send id { type := .Hello, payload := packString (text "exn_gsd") }).currentLinkFrame)
    exact greeted.ready
  | decode id =>
    simp only [resume] at handled
    split at handled
    next =>
      cases handled
      exact .same rfl
    next session _ =>
      cases decoded : tryDecode session.rxbuf .unset with
      | none => simp [decode, decoded] at handled
      | some result =>
        obtain ⟨found, rxbuf, f⟩ := result
        cases found with
        | false =>
          rw [decode_waits decoded] at handled
          cases handled
          exact .same rfl
        | true =>
          rw [decode_found decoded] at handled
          exact (handleFrame_posts handled).ready

theorem runTask_grows {task : Task} (handled : d.runTask env task = some t) : d.Grows t := by
  have session : ∀ id (e : EventLoop.Effects IpcSession SessionOp SharedBytes),
      d.Grows (d.onSession id e) := by
    intro id e
    rw [onSession_eq]
    exact .same rfl
  cases task with
  | accepted result =>
    simp only [runTask] at handled
    split at handled <;> cases handled <;> exact .same rfl
  | session id op result =>
    simp only [runTask] at handled
    split at handled
    next =>
      cases handled
      exact .same rfl
    next =>
      split at handled
      next =>
        cases handled
        exact session _ _
      next =>
        cases handled
        exact .same rfl
      next =>
        obtain ⟨e, _, rfl⟩ := Option.map_eq_some_iff.mp handled
        exact session _ _
  | send id bytes =>
    simp only [runTask] at handled
    split at handled <;> cases handled
    next => exact .same rfl
    next => exact session _ _
  | link op result => exact (onLink_posts handled).ready
  | transmit bytes => exact (onLink_posts handled).ready

theorem reading_cons {task : Task} {ready : List Task} (first : d.ready = task :: ready) (g : Nat) :
    d.reading g = (task.reading g).toList ++ App.reading { d with ready } g := by
  rw [App.reading, first, List.filterMap_cons]
  cases task.reading g <;> rfl

/-- What the reads of a generation have brought has come to the framer or waits for its handler, but for
what was left behind when the next generation began. -/
structure Fetches (d : App) (fetched : Nat → List UInt8) : Prop where
  current : (d.chunks d.link.generation).flatten ++ (d.reading d.link.generation).flatten =
    fetched d.link.generation
  past : ∀ g, (d.chunks g).flatten <+: fetched g
  unborn : ∀ g, d.link.generation < g → fetched g = [] ∧ d.reading g = []

variable {fetched : Nat → List UInt8}

theorem fetches_initial (transport : Transport) : (initial transport).Fetches fun _ => [] :=
  ⟨rfl, fun _ => List.prefix_rfl, fun _ _ => ⟨rfl, rfl⟩⟩

theorem Fetches.quiet (fetches : d.Fetches fetched) (chunks : ∀ g, t.chunks g = d.chunks g)
    (reading : ∀ g, t.reading g = d.reading g) (later : d.link.generation ≤ t.link.generation) :
    t.Fetches fetched := by
  refine ⟨?_, fun g => ?_, fun g after => ?_⟩
  · rw [chunks, reading]
    rcases Nat.eq_or_lt_of_le later with same | next
    · rw [← same]
      exact fetches.current
    · obtain ⟨none, empty⟩ := fetches.unborn _ next
      have nothing := fetches.past t.link.generation
      rw [none, List.prefix_nil] at nothing
      rw [nothing, empty, none]
      rfl
  · rw [chunks]
    exact fetches.past g
  · rw [reading]
    exact fetches.unborn g (Nat.lt_of_le_of_lt later after)

theorem chunks_device (d : App) (g : Nat) : d.device.chunks g = d.chunks g := by
  rw [Device.chunks, d.observed_device fun _ => chunk_other g]
  rfl

theorem step_unheard {a : Action} (met : d.Meets (fun _ task => task.Unread) a)
    (taken : step env d a = .next t) : d.device.Unheard t.device :=
  Device.steps_invariant
    (fun _ _ before stepped =>
      have now := Device.step_unheard stepped
      ⟨fun g => (now.chunks g).trans (before.chunks g), now.marks.trans before.marks,
        Nat.le_trans before.later now.later⟩)
    ⟨fun _ => rfl, rfl, Nat.le_refl _⟩ (deviceSteps_step met taken)

theorem Fetches.unheard (fetches : d.Fetches fetched) (unheard : d.device.Unheard t.device)
    (reading : ∀ g, t.reading g = d.reading g) : t.Fetches fetched := by
  refine fetches.quiet (fun g => ?_) reading unheard.later
  rw [← chunks_device, ← chunks_device]
  exact unheard.chunks g

theorem fetches_read {g : Nat} {data : List UInt8} {ready : List Task} (fetches : d.Fetches fetched)
    (first : d.ready = .link (.read g) (.ok data) :: ready)
    (handled : { d with ready }.runTask env (.link (.read g) (.ok data)) = some t) : t.Fetches fetched := by
  have turned := device_onLink handled
  have grown : ∀ g', t.reading g' = App.reading { d with ready } g' := (runTask_grows handled).reading
  have popped := reading_cons first
  have left : ∀ g', d.link.generation < g' → fetched g' = [] ∧ t.reading g' = [] := by
    intro g' later
    obtain ⟨none, empty⟩ := fetches.unborn g' later
    rw [popped, List.append_eq_nil_iff] at empty
    exact ⟨none, (grown g').trans empty.2⟩
  by_cases current : g = d.link.generation
  · subst current
    obtain ⟨chunks, -, generation⟩ := @Device.turn_fetched env.lib { d with ready }.device data
    have link : t.link.generation = d.link.generation := (congrArg (·.link.generation) turned).trans generation
    have heard : ∀ g', (t.chunks g').flatten =
        (d.chunks g').flatten ++ if d.link.generation = g' then data else [] := by
      intro g'
      rw [← chunks_device, turned, ← chunks_device d]
      exact chunks g'
    have all := fetches.current
    rw [popped, Task.reading, if_pos rfl, Option.toList_some, List.flatten_append, List.flatten_singleton,
      ← List.append_assoc] at all
    refine ⟨?_, fun g' => ?_, fun g' later => left g' (link ▸ later)⟩
    · rw [link, heard, if_pos rfl, grown]
      exact all
    · rw [heard]
      by_cases same : d.link.generation = g'
      · rw [if_pos same, ← same, ← all]
        exact List.prefix_append _ _
      · rw [if_neg same, List.append_nil]
        exact fetches.past g'
  · have stale : (LinkOp.read g).generation ≠ d.link.generation := current
    have ignored : { d with ready }.link.handler (.read g) (.ok data) = (d.link, []) :=
      SerialLink.handler_stale stale _
    rw [ignored] at turned
    have unheard : { d with ready }.device.Unheard t.device := by
      rw [turned]
      exact Device.unheard_turn (by simp) (Nat.le_refl _)
    have own : App.reading { d with ready } d.link.generation = d.reading d.link.generation := by
      rw [popped, Task.reading, if_neg current]
      rfl
    have before : App.Fetches { d with ready } fetched :=
      ⟨own ▸ fetches.current, fetches.past, fun g' later => ⟨(left g' later).1, (grown g').symm.trans (left g' later).2⟩⟩
    exact before.unheard unheard grown

theorem fetches_finish {i : Nat} {op : Op} {result : Completion} (fetches : d.Fetches fetched)
    (may : d.mayEnd op result = true) :
    (d.finish i op result).Fetches fun g => fetched g ++ ((handlerOf op result).reading g).getD [] := by
  have reading : ∀ g, (d.finish i op result).reading g =
      d.reading g ++ ((handlerOf op result).reading g).toList := by
    intro g
    rw [App.reading, finish, List.filterMap_append, List.filterMap_cons]
    cases (handlerOf op result).reading g <;> rfl
  refine ⟨?_, fun g => (fetches.past g).trans (List.prefix_append _ _), fun g later => ?_⟩
  · have all := fetches.current
    change (d.chunks d.link.generation).flatten ++
      ((d.finish i op result).reading d.link.generation).flatten =
        fetched d.link.generation ++ ((handlerOf op result).reading d.link.generation).getD []
    rw [reading, List.flatten_append, ← List.append_assoc, all]
    cases (handlerOf op result).reading d.link.generation with
    | none => rfl
    | some data => rw [Option.toList_some, List.flatten_singleton, Option.getD_some]
  · have later : d.link.generation < g := later
    obtain ⟨none, empty⟩ := fetches.unborn g later
    have silent : (handlerOf op result).reading g = Option.none := by
      cases brings : (handlerOf op result).reading g with
      | none => rfl
      | some data =>
        -- A read succeeds in the present generation only.
        cases op with
        | link op =>
          cases op with
          | read generation =>
            cases result with
            | error message => cases brings
            | ok data =>
              simp only [handlerOf, Task.reading] at brings
              simp only [mayEnd, SerialLink.mayEnd, Bool.decide_and, Bool.and_eq_true, decide_eq_true_eq] at may
              split at brings
              next same => omega
              next => cases brings
          | _ => cases brings
        | _ => cases brings
    rw [reading, silent, none, empty]
    exact ⟨rfl, rfl⟩

/-- What a read brings in addition is fetched when it ends. -/
theorem fetches_step {a : Action} (fetches : d.Fetches fetched) (taken : step env d a = .next t) :
    t.Fetches fun g => fetched g ++ d.fetches g a := by
  cases a with
  | finish i result =>
    obtain ⟨op, here, may, rfl⟩ := step_finish.mp taken
    have ended := @fetches_finish d fetched i op result fetches may
    simp only [App.fetches, here, Option.bind_some]
    exact ended
  | run =>
    have same : (fun g => fetched g ++ d.fetches g .run) = fetched := funext fun g => List.append_nil _
    rw [same]
    rcases step_run taken with ⟨rest, resumed, handled⟩ | ⟨idle, task, ready, first, handled⟩
    · have met : d.Meets (fun _ task => task.Unread) .run := by simp [Meets, resumed]
      exact fetches.unheard (step_unheard met taken) (resume_grows handled).reading
    · by_cases unread : task.Unread
      · have met : d.Meets (fun _ task => task.Unread) .run := by simp [Meets, idle, first, unread]
        refine fetches.unheard (step_unheard met taken) fun g => ?_
        rw [(runTask_grows handled).reading g, reading_cons first, unread.unheard]
        rfl
      · cases task with
        | link op result =>
          cases op with
          | read generation =>
            cases result with
            | error message => exact absurd trivial unread
            | ok data => exact fetches_read fetches first handled
          | _ => exact absurd trivial unread
        | _ => exact absurd trivial unread

end App

end ExnGs.Daemon
