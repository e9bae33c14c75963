import ExnGs.Daemon.Transmission
import ExnGs.Shared.FramerStream

set_option autoImplicit false

-- Which connection the bytes of a packet come from that the framer behind the link hands on.
namespace ExnGs.Daemon

open Proto SpacePacket Framer Machine

def Event.chunk (generation : Nat) : Event → List (List UInt8)
  | .link (.onBytes g data) => if g = generation then [data] else []
  | _ => []

def Event.framedIn (generation : Nat) : Event → List (List UInt8)
  | .framed g packet => if g = generation then [packet] else []
  | _ => []

def LinkEvent.delivers : LinkEvent → Bool
  | .onBytes _ _ => true
  | _ => false

namespace Device

def chunks (dev : Device) (generation : Nat) : List (List UInt8) :=
  dev.log.flatMap (Event.chunk generation)

def framedIn (dev : Device) (generation : Nat) : List (List UInt8) :=
  dev.log.flatMap (Event.framedIn generation)

-- The first bytes of a generation find nothing left of earlier ones.
def FindsEmpty (dev : Device) : Task → Prop
  | .link (.read generation) (.ok data) =>
    generation = dev.link.generation → data ≠ [] → dev.chunks generation = [] → dev.framer.acc = []
  | _ => True

instance : ∀ dev task, Decidable (FindsEmpty dev task)
  | dev, .link (.read generation) (.ok data) =>
    inferInstanceAs (Decidable (generation = dev.link.generation → data ≠ [] →
      dev.chunks generation = [] → dev.framer.acc = []))
  | _, .link (.read _) (.error _) | _, .link (.resolve _) _ | _, .link (.connect _) _
  | _, .link (.write _ _) _ | _, .accepted _ | _, .session _ _ _ | _, .send _ _
  | _, .transmit _ => .isTrue trivial

theorem turn_undelivered (lib : CcsdsPack) (dev : Device) {turn : SerialLink × List LinkEvent}
    (none : ∀ event ∈ turn.2, event.delivers = false) :
    (dev.turn lib turn).framer = dev.framer ∧
      (dev.turn lib turn).log = dev.log ++ turn.2.map .link := by
  obtain ⟨link, events⟩ := turn
  have fold : ∀ dev : Device, (events.foldl (onEvent lib) dev).framer = dev.framer ∧
      (events.foldl (onEvent lib) dev).log = dev.log ++ events.map .link := by
    induction events with
    | nil => simp
    | cons event events ih =>
      intro dev
      obtain ⟨here, later⟩ := List.forall_mem_cons.mp none
      have once : (onEvent lib dev event).framer = dev.framer ∧
          (onEvent lib dev event).log = dev.log ++ [.link event] := by
        cases event <;> first | exact ⟨rfl, rfl⟩ | cases here
      rw [List.foldl_cons, (ih later _).1, (ih later _).2, once.1, once.2]
      simp
  exact fold { dev with link }

variable {lib : CcsdsPack} (header : DependsOnHeader lib.declaredPacketSize)

/-- Each generation's packets are those of its own bytes, and the framer holds what is left of the
present one's. -/
structure FramesOwn (dev : Device) : Prop where
  own : ∀ generation, dev.framedIn generation =
    packets ((segmenter header).split (dev.chunks generation).flatten).1
  unborn : ∀ generation, dev.link.generation < generation → dev.chunks generation = []
  held : dev.chunks dev.link.generation ≠ [] →
    dev.framer.acc = ((segmenter header).split (dev.chunks dev.link.generation).flatten).2

variable {header} {dev : Device}

theorem chunk_undelivered {event : LinkEvent} (none : event.delivers = false) (generation : Nat) :
    Event.chunk generation (.link event) = [] := by
  cases event <;> first | rfl | cases none

theorem FramesOwn.undelivered (frames : dev.FramesOwn header) {turn : SerialLink × List LinkEvent}
    (none : ∀ event ∈ turn.2, event.delivers = false)
    (later : turn.1.generation = dev.link.generation ∨
      turn.1.generation = dev.link.generation + 1) : (dev.turn lib turn).FramesOwn header := by
  obtain ⟨framer, log⟩ := turn_undelivered lib dev none
  have chunks : ∀ generation, (dev.turn lib turn).chunks generation = dev.chunks generation := by
    intro generation
    have nothing : (turn.2.map Event.link).flatMap (Event.chunk generation) = [] := by
      rw [List.flatMap_map, List.flatMap_eq_nil_iff]
      exact fun event member => chunk_undelivered (none event member) generation
    rw [Device.chunks, log, List.flatMap_append, nothing, List.append_nil, Device.chunks]
  have framed : ∀ generation, (dev.turn lib turn).framedIn generation = dev.framedIn generation := by
    intro generation
    have nothing : (turn.2.map Event.link).flatMap (Event.framedIn generation) = [] := by
      rw [List.flatMap_map, List.flatMap_eq_nil_iff]
      exact fun _ _ => rfl
    rw [Device.framedIn, log, List.flatMap_append, nothing, List.append_nil, Device.framedIn]
  constructor
  · intro generation
    rw [framed, chunks]
    exact frames.own generation
  · intro generation after
    rw [turn_link] at after
    rw [chunks]
    exact frames.unborn generation (by omega)
  · rw [turn_link, chunks, framer]
    rcases later with same | next
    · rw [same]
      exact frames.held
    · rw [next, frames.unborn _ (Nat.lt_succ_self _)]
      exact fun none => absurd rfl none

theorem chunks_onBytes (dev : Device) (g : Nat) (data : List UInt8) (generation : Nat) :
    (dev.onEvent lib (.onBytes g data)).chunks generation =
      dev.chunks generation ++ if g = generation then [data] else [] := by
  simp [chunks, onEvent, Event.chunk, List.flatMap_map]

theorem framedIn_onBytes (dev : Device) (g : Nat) (data : List UInt8) (generation : Nat) :
    (dev.onEvent lib (.onBytes g data)).framedIn generation = dev.framedIn generation ++
      if g = generation then (pushBytes lib.declaredPacketSize dev.framer data).2 else [] := by
  by_cases same : g = generation
  · simp [framedIn, onEvent, Event.framedIn, List.flatMap_map, same, List.flatMap_singleton']
  · simp [framedIn, onEvent, Event.framedIn, List.flatMap_map, same]

theorem FramesOwn.residue (frames : dev.FramesOwn header)
    (clean : dev.chunks dev.link.generation = [] → dev.framer.acc = []) :
    dev.framer.acc = ((segmenter header).split (dev.chunks dev.link.generation).flatten).2 := by
  by_cases first : dev.chunks dev.link.generation = []
  · have empty : (segmenter header).split [] = ([], []) :=
      (segmenter header).split_none (turn_nil lib.declaredPacketSize)
    rw [clean first, first, List.flatten_nil, empty]
  · exact frames.held first

theorem FramesOwn.deliver (frames : dev.FramesOwn header) (data : List UInt8)
    (clean : dev.chunks dev.link.generation = [] → dev.framer.acc = []) :
    (dev.onEvent lib (.onBytes dev.link.generation data)).FramesOwn header := by
  -- Pushing the bytes continues the segmentation of what this generation has read.
  have residue := frames.residue clean
  have waiting : Framer.turn lib.declaredPacketSize dev.framer.acc = none := by
    rw [residue]
    exact (segmenter header).cut_residue _
  have pushed := pushBytes_split header dev.framer waiting data
  have more := (segmenter header).split_append (dev.chunks dev.link.generation).flatten data
  rw [← residue] at more
  constructor
  · intro generation
    rw [framedIn_onBytes, chunks_onBytes]
    by_cases same : dev.link.generation = generation
    · subst same
      rw [if_pos rfl, if_pos rfl, List.flatten_append, List.flatten_singleton, more, packets_append,
        frames.own, pushed]
    · rw [if_neg same, if_neg same, List.append_nil, List.append_nil, frames.own]
  · intro generation later
    rw [onEvent_link] at later
    rw [chunks_onBytes, if_neg (by omega), List.append_nil, frames.unborn generation later]
  · intro _
    rw [onEvent_link, chunks_onBytes, if_pos rfl, List.flatten_append, List.flatten_singleton, more]
    exact congrArg (fun result => result.1.acc) pushed

theorem FramesOwn.handled (frames : dev.FramesOwn header) {op : LinkOp} {result : Completion}
    {turn : SerialLink × List LinkEvent} (clean : dev.FindsEmpty (.link op result))
    (handled : dev.link.Handled op result turn) : (dev.turn lib turn).FramesOwn header := by
  cases handled with
  | @read data next reads =>
    have later : ∀ event ∈ next, event.delivers = false := by
      rcases reads with rfl | rfl <;> simp [LinkEvent.delivers]
    by_cases empty : data = []
    · rw [if_pos empty, List.nil_append]
      exact frames.undelivered later (.inl rfl)
    · rw [if_neg empty]
      have delivered := frames.deliver data (clean rfl empty)
      have reads : (Device.turn lib _ (dev.link, next)).FramesOwn header :=
        delivered.undelivered later (.inl rfl)
      exact reads
  | written writes =>
    rcases writes with rfl | ⟨_, _, rfl⟩ <;>
      exact frames.undelivered (by simp [LinkEvent.delivers]) (.inl rfl)
  | _ => exact frames.undelivered (by simp [LinkEvent.delivers]) (.inl rfl)

theorem FramesOwn.announce (frames : dev.FramesOwn header) (data : List UInt8) (f : Frame) :
    (dev.announce data f).FramesOwn header := by
  have chunks : ∀ generation, (dev.announce data f).chunks generation = dev.chunks generation := by
    simp [Device.announce, Device.chunks, Event.chunk]
  have framed : ∀ generation,
      (dev.announce data f).framedIn generation = dev.framedIn generation := by
    simp [Device.announce, Device.framedIn, Event.framedIn]
  constructor
  · intro generation
    rw [framed, chunks, frames.own]
  · intro generation later
    rw [chunks, frames.unborn generation later]
  · rw [chunks]
    exact frames.held

theorem FramesOwn.step {env : Env} {header : DependsOnHeader env.lib.declaredPacketSize}
    {dev dev' : Device} (frames : dev.FramesOwn header) (step : Step env FindsEmpty dev dev') :
    dev'.FramesOwn header := by
  cases step with
  | start =>
    have started := dev.link.start_cases env.device
    generalize dev.link.start env.device = turn at started
    cases started with
    | busy => exact frames
    | _ => exact frames.undelivered (by simp [LinkEvent.delivers]) (.inr rfl)
  | stop => exact frames.undelivered (by simp [SerialLink.stop, LinkEvent.delivers]) (.inr rfl)
  | @write data f _ long =>
    rw [SerialLink.writeBytes, if_neg long]
    exact (frames.undelivered (by simp [LinkEvent.delivers]) (.inl rfl)).announce data f
  | finish => exact ⟨frames.own, frames.unborn, frames.held⟩
  | @handle op result rest tasks allowed =>
    have taken : ({ dev with tasks := rest } : Device).FramesOwn header :=
      ⟨frames.own, frames.unborn, frames.held⟩
    exact taken.handled (by cases op <;> cases result <;> exact allowed) (SerialLink.handler_cases _ _ _)
  | @transmit packet rest tasks =>
    have taken : ({ dev with tasks := rest } : Device).FramesOwn header :=
      ⟨frames.own, frames.unborn, frames.held⟩
    have written := dev.link.runWrite_cases packet
    generalize dev.link.runWrite packet = turn at written
    cases written <;> exact taken.undelivered (by simp [LinkEvent.delivers]) (.inl rfl)

end Device

namespace App

def chunks (d : App) (generation : Nat) : List (List UInt8) :=
  d.history.flatMap (Event.chunk generation)

def framedIn (d : App) (generation : Nat) : List (List UInt8) :=
  d.history.flatMap (Event.framedIn generation)

/-- The packets framed in each generation are those that a fresh framer finds in its bytes, and they
are stretches of these bytes, one behind the other. -/
def ReceivesOwn (lib : CcsdsPack) (d : App) : Prop :=
  ∀ generation,
    d.framedIn generation = (pushAll lib.declaredPacketSize {} (d.chunks generation)).2 ∧
    ∃ blocks : List (Cut × List UInt8), ∃ rest,
      blocks.flatMap Prod.snd ++ rest = (d.chunks generation).flatten ∧
      packets blocks = d.framedIn generation

theorem chunk_other (generation : Nat) {event : Event} (other : event.isDevice = false) :
    event.chunk generation = [] := by
  cases event <;> first | rfl | cases other

theorem framedIn_other (generation : Nat) {event : Event} (other : event.isDevice = false) :
    event.framedIn generation = [] := by
  cases event <;> first | rfl | cases other

theorem receivesOwn_of_framesOwn {lib : CcsdsPack} (header : DependsOnHeader lib.declaredPacketSize)
    {d : App} (frames : d.device.FramesOwn header) : d.ReceivesOwn lib := by
  intro generation
  have own := frames.own generation
  rw [Device.framedIn, Device.chunks, d.observed_device fun _ => framedIn_other generation,
    d.observed_device fun _ => chunk_other generation] at own
  refine ⟨?_, _, _, (segmenter header).split_flatten _, own.symm⟩
  rw [pushAll_fresh header]
  exact own

/-- Connections do not mix, as long as nothing is left in the framer when the first bytes of a
connection come. -/
theorem receives_isolated (env : Env) (header : DependsOnHeader env.lib.declaredPacketSize)
    (transport : Transport) {d : App}
    (path : Reaches (step env) (Meets Device.FindsEmpty) (initial transport) d) :
    d.ReceivesOwn env.lib := by
  have idle : (initial transport).device.FramesOwn header := by
    refine ⟨fun _ => ?_, fun _ _ => rfl, fun some => absurd rfl some⟩
    have empty : (segmenter header).split [] = ([], []) :=
      (segmenter header).split_none (turn_nil env.lib.declaredPacketSize)
    change [] = packets ((segmenter header).split []).1
    rw [empty, packets_nil]
  exact receivesOwn_of_framesOwn header
    (device_invariant (fun _ _ frames step => frames.step step) idle path)

end App

theorem receives_isolated_bench :
    ∃ d, run (App.step benchEnv) (App.initial benchPort)
        (clientSends [.finish 1 (.ok [0, 0, 0xC0]), .run, .finish 1 (.ok [0, 0, 0, 42]), .run]
          [command "RECONNECT"] ++ [.finish 3 (.ok benchPacket), .run, .run, .run]) = some d ∧
      (d.framedIn 1, d.framedIn 3) = ([benchPacket], [benchPacket]) ∧
      d.ReceivesOwn Reference.pack := by
  have ran : (run (App.step benchEnv) (App.initial benchPort)
      (clientSends [.finish 1 (.ok [0, 0, 0xC0]), .run, .finish 1 (.ok [0, 0, 0, 42]), .run]
        [command "RECONNECT"] ++ [.finish 3 (.ok benchPacket), .run, .run, .run])).map
        (fun d => (d.framedIn 1, d.framedIn 3)) = some ([benchPacket], [benchPacket]) := by
    decide +kernel
  obtain ⟨d, reached, framed⟩ := Option.map_eq_some_iff.mp ran
  exact ⟨d, reached, framed, App.receives_isolated benchEnv Reference.dependsOnHeader benchPort
    (reaches_of_along (by decide +kernel) reached)⟩

-- Three bytes are read, the link is opened again, and they make a packet with the four bytes read then.
theorem receives_across_reconnect :
    ¬ ∀ d, Reaches (App.step benchEnv) (fun _ _ => True) (App.initial benchPort) d →
      d.ReceivesOwn Reference.pack := by
  intro isolated
  have ran : (run (App.step benchEnv) (App.initial benchPort)
      (clientSends [.finish 1 (.ok [0, 0, 0xC0]), .run] [command "RECONNECT"] ++
        [.finish 3 (.ok [0, 0, 0, 42]), .run, .run, .run])).map
        (fun d => (d.chunks 3, d.framedIn 3)) = some ([[0, 0, 0, 42]], [benchPacket]) := by
    decide +kernel
  obtain ⟨d, reached, both⟩ := Option.map_eq_some_iff.mp ran
  obtain ⟨chunks, framed⟩ := Prod.mk.inj both
  have own := (isolated d (reaches_of_along (by decide +kernel) reached) 3).1
  rw [chunks, framed] at own
  revert own
  decide +kernel

end ExnGs.Daemon
