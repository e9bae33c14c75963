import ExnGs.Daemon.Accounting
import ExnGs.Daemon.Device
import ExnGs.Daemon.WriteOrder

set_option autoImplicit false

-- The daemon drives its link as a client of the link's own event loop would: what holds of the link under
-- any order of calls and completions holds of it in the daemon.
namespace ExnGs.Daemon

open Machine EventLoop Relation

def Task.completed : Task → Option (Pending LinkOp Completion)
  | .link op result => some { op, result := some result }
  | _ => none

def LinkOp.outstanding (op : LinkOp) : Pending LinkOp Completion := { op }

def Task.closure : Task → Option TxPacket
  | .transmit packet => some packet
  | _ => none

def Event.ofLink : Event → List LinkEvent
  | .link event => [event]
  | _ => []

/-- The loop of the link in the place of the device side of the daemon: the tasks that are ready are its
completed operations and its posted closures. -/
structure Device.Mirrors (dev : Device) (l : LinkLoop) : Prop where
  link : l.link = dev.link
  pending : l.pending.Perm
    (dev.ops.map LinkOp.outstanding ++ dev.tasks.filterMap Task.completed)
  posted : l.posted = dev.tasks.filterMap Task.closure
  history : l.state.history.map Prod.snd = dev.log.flatMap Event.ofLink

namespace Device

variable {env : Env} {dev dev' : Device} {l : LinkLoop}

theorem posted_closures (events : List LinkEvent) :
    (events.flatMap LinkEvent.posted).filterMap Task.closure = events.flatMap LinkEvent.packets ∧
      (events.flatMap LinkEvent.posted).filterMap Task.completed = [] := by
  induction events with
  | nil => exact ⟨rfl, rfl⟩
  | cons event events ih =>
    simp only [List.flatMap_cons, List.filterMap_append, ih]
    cases event <;> exact ⟨rfl, rfl⟩

-- A turn of the link is the same on both sides.
theorem Mirrors.turn {ops : List LinkOp} {tasks : List Task} {pending : List (Pending LinkOp Completion)}
    {posted : List TxPacket} (mirrors : dev.Mirrors l) (turn : SerialLink × List LinkEvent)
    (rest : pending.Perm (ops.map LinkOp.outstanding ++ tasks.filterMap Task.completed))
    (closures : posted = tasks.filterMap Task.closure) (lib : SpacePacket.CcsdsPack) :
    Mirrors (Device.turn lib { dev with ops, tasks } turn)
      (l.after posted pending (l.state.effects turn)) := by
  obtain ⟨packets, none⟩ := posted_closures turn.2
  refine ⟨(turn_link lib _ turn).symm, ?_, ?_, ?_⟩
  · rw [turn_ops, turn_tasks, List.filterMap_append, none, List.append_nil, List.map_append]
    refine (rest.append_right _).trans ?_
    rw [List.append_assoc, List.append_assoc]
    exact List.perm_append_comm.append_left _
  · rw [turn_tasks, List.filterMap_append, packets, ← closures]
    rfl
  · rw [turn_observed (fun _ _ => rfl)]
    change (l.state.history ++ turn.2.map fun event => (turn.1.generation, event)).map Prod.snd = _
    rw [List.map_append, mirrors.history, List.map_map]
    congr 1
    simp only [Event.ofLink]
    exact (List.flatMap_singleton' turn.2).symm ▸ by simp [Function.comp_def]

theorem Mirrors.call (mirrors : dev.Mirrors l) (c : LinkCall) (lib : SpacePacket.CcsdsPack) :
    ∃ l', step LinkRun.party l (.call c) = .next l' ∧
      Mirrors (dev.turn lib (dev.link.call c)) l' := by
  have turned := mirrors.turn (dev.link.call c) mirrors.pending mirrors.posted lib
  refine ⟨_, rfl, ?_⟩
  rw [← mirrors.link] at turned ⊢
  exact ⟨turned.link, turned.pending, turned.posted, turned.history⟩

theorem Mirrors.announce (mirrors : dev.Mirrors l) (data : List UInt8) (f : Proto.Frame) :
    (dev.announce data f).Mirrors l := by
  refine ⟨mirrors.link, mirrors.pending, mirrors.posted, ?_⟩
  rw [mirrors.history, Device.announce]
  simp [Event.ofLink]

theorem Mirrors.finish (mirrors : dev.Mirrors l) {before after : List LinkOp} {op : LinkOp}
    (ops : dev.ops = before ++ op :: after) (result : Completion) :
    ∃ i l', step LinkRun.party l (.finish i result) = .next l' ∧
      Mirrors { dev with ops := before ++ after, tasks := dev.tasks ++ [.link op result] } l' := by
  have outstanding : { op } ∈ l.pending := by
    refine mirrors.pending.mem_iff.mpr (List.mem_append_left _ (List.mem_map.mpr ⟨op, ?_, rfl⟩))
    simp [ops]
  obtain ⟨i, here⟩ := List.mem_iff_getElem?.mp outstanding
  obtain ⟨front, back, split, erased⟩ := split_eraseIdx here
  have inside := (List.getElem?_eq_some_iff.mp here).1
  refine ⟨i, { l with pending := l.pending.set i { op, result := some result } },
    by simp [step, here, LinkRun.party], mirrors.link, ?_, ?_, mirrors.history⟩
  · -- The operation that has ended takes the place of the one that was outstanding.
    have placed : (l.pending.set i { op, result := some result }).Perm
        ({ op, result := some result } :: l.pending.eraseIdx i) := by
      rw [List.set_eq_take_append_cons_drop, if_pos inside, List.eraseIdx_eq_take_drop_succ]
      exact List.perm_middle
    have removed : (l.pending.eraseIdx i).Perm
        ((before ++ after).map LinkOp.outstanding ++ dev.tasks.filterMap Task.completed) := by
      have all := mirrors.pending
      rw [split, ops, List.map_append, List.map_cons, List.append_assoc] at all
      rw [erased, List.map_append, List.append_assoc]
      exact (List.perm_middle.symm.trans (all.trans List.perm_middle)).cons_inv
    rw [List.filterMap_append, ← List.append_assoc]
    exact placed.trans ((removed.cons _).trans (List.perm_append_singleton _ _).symm)
  · rw [mirrors.posted, List.filterMap_append]
    exact (List.append_nil _).symm

theorem Mirrors.handle (mirrors : dev.Mirrors l) {op : LinkOp} {result : Completion} {rest : List Task}
    (tasks : dev.tasks = .link op result :: rest) (lib : SpacePacket.CcsdsPack) :
    ∃ i l', step LinkRun.party l (.handler i) = .next l' ∧
      Mirrors (Device.turn lib { dev with tasks := rest } (dev.link.handler op result)) l' := by
  have ended : { op, result := some result } ∈ l.pending := by
    refine mirrors.pending.mem_iff.mpr (List.mem_append_right _ ?_)
    rw [tasks]
    exact List.mem_cons_self
  obtain ⟨i, here⟩ := List.mem_iff_getElem?.mp ended
  obtain ⟨front, back, split, erased⟩ := split_eraseIdx here
  have left : (l.pending.eraseIdx i).Perm
      (dev.ops.map LinkOp.outstanding ++ rest.filterMap Task.completed) := by
    have all := mirrors.pending
    rw [split, tasks] at all
    rw [erased]
    exact (List.perm_middle.symm.trans (all.trans List.perm_middle)).cons_inv
  have posted : l.posted = rest.filterMap Task.closure := by
    rw [mirrors.posted, tasks]
    rfl
  have turned := mirrors.turn (dev.link.handler op result) left posted lib
  refine ⟨i, _, by simp only [step, here, LinkRun.party]; rfl, ?_⟩
  rw [← mirrors.link] at turned ⊢
  exact turned

theorem Mirrors.transmit (mirrors : dev.Mirrors l) {packet : TxPacket} {rest : List Task}
    (tasks : dev.tasks = .transmit packet :: rest) (lib : SpacePacket.CcsdsPack) :
    ∃ l', step LinkRun.party l (.closure 0) = .next l' ∧
      Mirrors (Device.turn lib { dev with tasks := rest } (dev.link.runWrite packet)) l' := by
  have posted : l.posted = packet :: rest.filterMap Task.closure := by
    rw [mirrors.posted, tasks]
    rfl
  have pending : l.pending.Perm
      (dev.ops.map LinkOp.outstanding ++ rest.filterMap Task.completed) := by
    have all := mirrors.pending
    rw [tasks] at all
    exact all
  have turned := mirrors.turn (dev.link.runWrite packet) pending rfl lib
  refine ⟨_, by simp only [step, posted, List.getElem?_cons_zero]; rfl, ?_⟩
  rw [← mirrors.link] at turned ⊢
  exact turned

/-- Every step of the device side is one of the loop of the link. -/
theorem Mirrors.step {may : Device → Task → Prop} (mirrors : dev.Mirrors l)
    (stepped : Step env may dev dev') :
    ∃ a l', step LinkRun.party l a = .next l' ∧ dev'.Mirrors l' := by
  cases stepped with
  | start =>
    obtain ⟨l', taken, mirrors'⟩ :=
      mirrors.call (.start (env.device (dev.link.generation + 1))) env.lib
    exact ⟨_, l', taken, mirrors'⟩
  | stop =>
    obtain ⟨l', taken, mirrors'⟩ := mirrors.call .stop env.lib
    exact ⟨_, l', taken, mirrors'⟩
  | @write data f opened long type =>
    obtain ⟨l', taken, mirrors'⟩ := mirrors.call (.write data) env.lib
    exact ⟨_, l', taken, mirrors'.announce data f⟩
  | @finish before after op result ops ends =>
    obtain ⟨i, l', taken, mirrors'⟩ := mirrors.finish ops result
    exact ⟨_, l', taken, mirrors'⟩
  | handle tasks allowed =>
    obtain ⟨i, l', taken, mirrors'⟩ := mirrors.handle tasks env.lib
    exact ⟨_, l', taken, mirrors'⟩
  | transmit tasks allowed =>
    obtain ⟨l', taken, mirrors'⟩ := mirrors.transmit tasks env.lib
    exact ⟨_, l', taken, mirrors'⟩

end Device

namespace App

-- What the link has done, in order.
def linkEvents (d : App) : List LinkEvent := d.history.flatMap Event.ofLink

theorem mirrors_initial (transport : Transport) :
    (initial transport).device.Mirrors (LinkLoop.idle transport) :=
  ⟨rfl, .refl _, rfl, rfl⟩

theorem ofLink_other (event : Event) (other : event.isDevice = false) : event.ofLink = [] := by
  cases event with
  | link event => cases other
  | _ => rfl

theorem filterMap_filter_device {β : Type} {view : Task → Option β}
    (others : ∀ task : Task, task.isDevice = false → view task = none) (tasks : List Task) :
    (tasks.filter Task.isDevice).filterMap view = tasks.filterMap view := by
  rw [List.filterMap_filter]
  refine List.filterMap_congr fun task _ => ?_
  cases device : task.isDevice with
  | true => simp
  | false => simp [others task device]

theorem completed_device (tasks : List Task) :
    (tasks.filter Task.isDevice).filterMap Task.completed = tasks.filterMap Task.completed :=
  filterMap_filter_device (fun task other => by cases task <;> first | rfl | cases other) tasks

theorem closures_device (tasks : List Task) :
    (tasks.filter Task.isDevice).filterMap Task.closure = tasks.filterMap Task.closure :=
  filterMap_filter_device (fun task other => by cases task <;> first | rfl | cases other) tasks

def Mirrored (transport : Transport) (dev : Device) : Prop :=
  ∃ l : LinkLoop, Reaches (EventLoop.step LinkRun.party) (fun _ _ => True) (LinkLoop.idle transport) l ∧
    dev.Mirrors l

theorem mirrored_initial (transport : Transport) : Mirrored transport (initial transport).device :=
  ⟨_, .refl, mirrors_initial transport⟩

theorem mirrored_step {env : Env} {may : Device → Task → Prop} {transport : Transport}
    (dev dev' : Device) (mirrored : Mirrored transport dev) (stepped : Device.Step env may dev dev') :
    Mirrored transport dev' := by
  obtain ⟨l, path, mirrors⟩ := mirrored
  obtain ⟨a, l', taken, mirrors'⟩ := mirrors.step stepped
  exact ⟨l', path.tail trivial taken, mirrors'⟩

theorem mirrored_reached {env : Env} {transport : Transport} {d : App}
    (reached : Reaches (step env) (fun _ _ => True) (initial transport) d) :
    Mirrored transport d.device :=
  device_invariant mirrored_step (mirrored_initial transport) (reached.mono fun d a _ => meets_any d a)

theorem linkEvents_device (d : App) : d.device.log.flatMap Event.ofLink = d.linkEvents :=
  flatMap_filter_own ofLink_other _

/-- Whatever the daemon does, its link is in a state that the loop of the link alone reaches, and has
done the same there. -/
theorem daemon_refines_link (env : Env) (transport : Transport) (d : App)
    (reached : Reaches (step env) (fun _ _ => True) (initial transport) d) :
    ∃ l : LinkLoop, Reaches (EventLoop.step LinkRun.party) (fun _ _ => True) (LinkLoop.idle transport) l ∧
      l.link = d.link ∧ l.state.history.map Prod.snd = d.linkEvents ∧
      l.pending.Perm ((d.outstanding.filterMap Op.device?).map LinkOp.outstanding ++
        d.ready.filterMap Task.completed) ∧
      l.posted = d.ready.filterMap Task.closure := by
  obtain ⟨l, path, mirrors⟩ := mirrored_reached reached
  have history := mirrors.history
  have pending := mirrors.pending
  have posted := mirrors.posted
  rw [linkEvents_device] at history
  rw [device, completed_device] at pending
  rw [device, closures_device] at posted
  exact ⟨l, path, mirrors.link, history, pending, posted⟩

end App

-- The serial port is opened, its first read has ended, and the handler is still to run.
theorem daemon_refines_link_reading :
    ∃ d, run (App.step benchEnv) (App.initial benchPort) [.run, .finish 1 (.ok [0xFF])] = some d ∧
      d.link.opened = true ∧
      ∃ l : LinkLoop, Reaches (EventLoop.step LinkRun.party) (fun _ _ => True) (LinkLoop.idle benchPort) l ∧
        l.link = d.link ∧ l.state.history.map Prod.snd = d.linkEvents ∧
        l.pending.Perm ((d.outstanding.filterMap Op.device?).map LinkOp.outstanding ++
          d.ready.filterMap Task.completed) ∧
        l.posted = d.ready.filterMap Task.closure := by
  have ran : (run (App.step benchEnv) (App.initial benchPort) [.run, .finish 1 (.ok [0xFF])]).map
      (fun d => d.link.opened) = some true := by decide +kernel
  obtain ⟨d, reached, opened⟩ := Option.map_eq_some_iff.mp ran
  exact ⟨d, reached, opened,
    App.daemon_refines_link benchEnv benchPort d (reaches_of_along (by decide +kernel) reached)⟩

end ExnGs.Daemon
