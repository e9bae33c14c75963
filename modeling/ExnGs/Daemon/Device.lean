import Mathlib.Logic.Relation
import ExnGs.Daemon.Requests

set_option autoImplicit false

-- The part of the daemon that the device link sees: the link, the framer behind it, the counts of what
-- was sent, and those operations, tasks and events that belong to them.
namespace ExnGs.Daemon

open Proto SpacePacket Framer Relation

structure Device where
  link : SerialLink
  framer : CcsdsFramer := {}
  txPackets : UInt64 := 0
  txBytes : UInt64 := 0
  ops : List LinkOp := []
  tasks : List Task := []
  log : List Event := []

def Task.isDevice : Task → Bool
  | .link _ _ | .transmit _ => true
  | _ => false

def Op.device? : Op → Option LinkOp
  | .link op => some op
  | _ => none

def Event.isDevice : Event → Bool
  | .link _ | .framed _ _ => true
  | .broadcast f => f.type = .PacketTx
  | _ => false

def App.device (d : App) : Device where
  link := d.link
  framer := d.framer
  txPackets := d.state.snap.txPackets
  txBytes := d.state.snap.txBytes
  ops := d.outstanding.filterMap Op.device?
  tasks := d.ready.filter Task.isDevice
  log := d.history.filter Event.isDevice

def LinkEvent.posted : LinkEvent → List Task
  | .post packet => [.transmit packet]
  | _ => []

namespace Device

def onEvent (lib : CcsdsPack) (dev : Device) (event : LinkEvent) : Device :=
  let dev := { dev with log := dev.log ++ [.link event] }
  match event with
  | .start op => { dev with ops := dev.ops ++ [op] }
  | .post packet => { dev with tasks := dev.tasks ++ [.transmit packet] }
  | .onBytes generation data =>
    let pushed := pushBytes lib.declaredPacketSize dev.framer data
    { dev with framer := pushed.1, log := dev.log ++ pushed.2.map (.framed generation) }
  | _ => dev

def turn (lib : CcsdsPack) (dev : Device) (turn : SerialLink × List LinkEvent) : Device :=
  turn.2.foldl (onEvent lib) { dev with link := turn.1 }

def announce (dev : Device) (data : List UInt8) (f : Frame) : Device :=
  { dev with
    txPackets := dev.txPackets + 1
    txBytes := dev.txBytes + UInt64.ofNat data.length
    log := dev.log ++ [.broadcast f] }

-- What can happen to the device side. `may` is a condition on the tasks that run.
inductive Step (env : Env) (may : Device → Task → Prop) (dev : Device) : Device → Prop
  | start : Step env may dev (dev.turn env.lib (dev.link.start env.device))
  | stop : Step env may dev (dev.turn env.lib dev.link.stop)
  | write {data : List UInt8} {f : Frame} (opened : dev.link.opened = true) (long : data ≠ [])
      (type : f.type = .PacketTx) :
      Step env may dev ((dev.turn env.lib (dev.link, dev.link.writeBytes data)).announce data f)
  | finish {before after : List LinkOp} {op : LinkOp} {result : Completion}
      (ops : dev.ops = before ++ op :: after) (ends : dev.link.mayEnd op result = true) :
      Step env may dev
        { dev with ops := before ++ after, tasks := dev.tasks ++ [.link op result] }
  | handle {op : LinkOp} {result : Completion} {rest : List Task}
      (tasks : dev.tasks = .link op result :: rest) (allowed : may dev (.link op result)) :
      Step env may dev ({ dev with tasks := rest }.turn env.lib (dev.link.handler op result))
  | transmit {packet : TxPacket} {rest : List Task}
      (tasks : dev.tasks = .transmit packet :: rest) (allowed : may dev (.transmit packet)) :
      Step env may dev ({ dev with tasks := rest }.turn env.lib (dev.link.runWrite packet))

theorem onEvent_link (lib : CcsdsPack) (dev : Device) (event : LinkEvent) :
    (dev.onEvent lib event).link = dev.link := by
  cases event <;> rfl

theorem turn_link (lib : CcsdsPack) (dev : Device) (turn : SerialLink × List LinkEvent) :
    (dev.turn lib turn).link = turn.1 := by
  obtain ⟨link, events⟩ := turn
  have fold : ∀ dev : Device, (events.foldl (onEvent lib) dev).link = dev.link := by
    induction events with
    | nil => exact fun _ => rfl
    | cons event events ih =>
      intro dev
      rw [List.foldl_cons, ih, onEvent_link]
  exact fold { dev with link }

theorem turn_adds {β : Type} {lib : CcsdsPack} (view : Device → List β) {adds : LinkEvent → List β}
    (grows : ∀ dev event, view (dev.onEvent lib event) = view dev ++ adds event) (dev : Device)
    (turn : SerialLink × List LinkEvent) :
    view (dev.turn lib turn) = view { dev with link := turn.1 } ++ turn.2.flatMap adds := by
  obtain ⟨link, events⟩ := turn
  have fold : ∀ dev : Device,
      view (events.foldl (onEvent lib) dev) = view dev ++ events.flatMap adds := by
    induction events with
    | nil => simp
    | cons event events ih =>
      intro dev
      rw [List.foldl_cons, ih, grows, List.append_assoc, List.flatMap_cons]
  exact fold { dev with link }

theorem turn_ops (lib : CcsdsPack) (dev : Device) (turn : SerialLink × List LinkEvent) :
    (dev.turn lib turn).ops = dev.ops ++ turn.2.flatMap LinkEvent.started :=
  turn_adds ops (fun dev event => by cases event <;> simp [onEvent, LinkEvent.started])
    dev turn

theorem turn_tasks (lib : CcsdsPack) (dev : Device) (turn : SerialLink × List LinkEvent) :
    (dev.turn lib turn).tasks = dev.tasks ++ turn.2.flatMap LinkEvent.posted :=
  turn_adds tasks (fun dev event => by cases event <;> simp [onEvent, LinkEvent.posted])
    dev turn

theorem turn_observed {β : Type} {observe : Event → List β}
    (framed : ∀ generation packet, observe (.framed generation packet) = []) (lib : CcsdsPack)
    (dev : Device) (turn : SerialLink × List LinkEvent) :
    (dev.turn lib turn).log.flatMap observe =
      dev.log.flatMap observe ++ turn.2.flatMap fun event => observe (.link event) := by
  refine turn_adds (fun dev => dev.log.flatMap observe) (fun dev event => ?_) dev turn
  cases event <;> simp [onEvent, List.flatMap_map, framed]

theorem onEvent_counts (lib : CcsdsPack) (dev : Device) (event : LinkEvent) :
    (dev.onEvent lib event).txPackets = dev.txPackets ∧
      (dev.onEvent lib event).txBytes = dev.txBytes := by
  cases event <;> exact ⟨rfl, rfl⟩

theorem turn_counts (lib : CcsdsPack) (dev : Device) (turn : SerialLink × List LinkEvent) :
    (dev.turn lib turn).txPackets = dev.txPackets ∧
      (dev.turn lib turn).txBytes = dev.txBytes := by
  obtain ⟨link, events⟩ := turn
  have fold : ∀ dev : Device, (events.foldl (onEvent lib) dev).txPackets = dev.txPackets ∧
      (events.foldl (onEvent lib) dev).txBytes = dev.txBytes := by
    induction events with
    | nil => exact fun _ => ⟨rfl, rfl⟩
    | cons event events ih =>
      intro dev
      have counts := onEvent_counts lib dev event
      exact ⟨(ih _).1.trans counts.1, (ih _).2.trans counts.2⟩
  exact fold { dev with link }

theorem steps_invariant {env : Env} {may : Device → Task → Prop} {inv : Device → Prop}
    (preserved : ∀ dev dev', inv dev → Step env may dev dev' → inv dev') {dev dev' : Device}
    (start : inv dev) (steps : ReflTransGen (Step env may) dev dev') : inv dev' := by
  induction steps with
  | refl => exact start
  | tail _ step ih => exact preserved _ _ ih step

end Device

namespace App

def initial (transport : Transport) : App where
  link := { toTransport := transport }

theorem flatMap_filter_own {α β : Type} {own : α → Bool} {observe : α → List β}
    (others : ∀ x, own x = false → observe x = []) (xs : List α) :
    (xs.filter own).flatMap observe = xs.flatMap observe := by
  induction xs with
  | nil => rfl
  | cons x xs ih =>
    cases mine : own x with
    | true => rw [List.filter_cons_of_pos mine, List.flatMap_cons, List.flatMap_cons, ih]
    | false =>
      rw [List.filter_cons_of_neg (by simp [mine]), List.flatMap_cons, others x mine, ih,
        List.nil_append]

-- A condition on the tasks of the device that run, as one on the daemon's actions.
def Meets (may : Device → Task → Prop) (d : App) : Action → Prop
  | .finish _ _ => True
  | .run =>
    match d.rest, d.ready with
    | none, task :: _ => task.isDevice = true → may d.device task
    | _, _ => True

instance (may : Device → Task → Prop) [∀ dev task, Decidable (may dev task)] (d : App) :
    ∀ a, Decidable (d.Meets may a)
  | .finish _ _ => .isTrue trivial
  | .run =>
    match rest : d.rest, ready : d.ready with
    | none, task :: _ =>
      decidable_of_iff (task.isDevice = true → may d.device task) (by simp [Meets, rest, ready])
    | none, [] => .isTrue (by simp [Meets, rest, ready])
    | some _, _ => .isTrue (by simp [Meets, rest])

theorem meets_any (d : App) (a : Action) : d.Meets (fun _ _ => True) a := by
  cases a with
  | finish => trivial
  | run =>
    simp only [Meets]
    split
    next => exact fun _ => trivial
    next => trivial

theorem device_log (d : App) (event : Event) :
    (d.log event).device =
      { d.device with log := d.device.log ++ if event.isDevice then [event] else [] } := by
  cases other : event.isDevice <;> simp [log, device, other]

theorem device_send (d : App) (session : Nat) (f : Frame) : (d.send session f).device = d.device := by
  simp [send, device, Task.isDevice, Event.isDevice]

theorem device_sends (ids : List Nat) (d : App) (f : Frame) :
    (ids.foldl (fun d session => d.send session f) d).device = d.device := by
  induction ids generalizing d with
  | nil => rfl
  | cons id ids ih => rw [List.foldl_cons, ih, device_send]

theorem device_broadcast (d : App) (f : Frame) : (d.broadcast f).device =
    { d.device with log := d.device.log ++ if f.type = .PacketTx then [.broadcast f] else [] } := by
  rw [broadcast, device_sends, device_log]
  simp [Event.isDevice]

theorem device_broadcast_other (d : App) {f : Frame} (other : f.type ≠ .PacketTx) :
    (d.broadcast f).device = d.device := by
  rw [device_broadcast, if_neg other, List.append_nil]

theorem device_publishLinkState (d : App) : d.publishLinkState.device = d.device :=
  device_broadcast_other d (show MsgType.LinkState ≠ .PacketTx by decide)

theorem device_initiate (d : App) (op : Op) :
    (d.initiate op).device = { d.device with ops := d.device.ops ++ op.device?.toList } := by
  cases op <;> simp [initiate, device, Op.device?]

theorem device_setLink (d : App) (st : LinkState) (detail : Text) :
    (d.modifyState fun state => state.setLink st detail).device = d.device := rfl

theorem device_onDecodeError (d : App) : (d.modifyState .onDecodeError).device = d.device := rfl

theorem device_keep (d : App) (generation : Nat) (record : PacketRecord) :
    (d.keep generation record).device =
      { d.device with log := d.device.log ++ [.framed generation record.raw] } := by
  simp [keep, StateStore.onPacket, device, List.filter_cons, Event.isDevice]

theorem rxRecord_raw (decoded : Except Text PacketMeta) (now : UInt64) (bytes : List UInt8) :
    (rxRecord decoded now bytes).raw = bytes := by
  cases decoded <;> rfl

theorem device_onPacket {env : Env} {d t : App} {generation : Nat} {bytes : List UInt8}
    (handled : d.onPacket env generation bytes = some t) :
    t.device = { d.device with log := d.device.log ++ [.framed generation bytes] } := by
  simp only [onPacket, Option.bind_eq_bind, Option.bind_eq_some_iff] at handled
  obtain ⟨decoded, _, handled⟩ := handled
  cases decoded with
  | error message =>
    cases handled
    rw [device_broadcast_other _ (show MsgType.Error ≠ .PacketTx by decide), device_onDecodeError,
      device_keep, rxRecord_raw]
  | ok m =>
    cases handled
    rw [device_broadcast_other _ (show MsgType.PacketRx ≠ .PacketTx by decide), device_keep,
      rxRecord_raw]

theorem device_onPackets {env : Env} {generation : Nat} (packets : List (List UInt8)) {d t : App}
    (handled : packets.foldlM (fun d packet => d.onPacket env generation packet) d = some t) :
    t.device = { d.device with log := d.device.log ++ packets.map (.framed generation) } := by
  let after : App → List (List UInt8) → Device := fun u rest =>
    { u.device with log := u.device.log ++ rest.map (.framed generation) }
  have total : after t [] = after d packets := by
    refine Machine.foldlM_invariant (motive := fun rest u => after u rest = after d packets)
      (fun packet rest u v before taken => ?_) packets rfl handled
    rw [← before]
    simp only [after, device_onPacket taken, List.map_cons, List.append_assoc, List.singleton_append]
  have none : after t [] = t.device := by simp only [after, List.map_nil, List.append_nil]
  exact none.symm.trans total

theorem device_onLinkEvent {env : Env} {d t : App} {event : LinkEvent}
    (handled : d.onLinkEvent env event = some t) : t.device = d.device.onEvent env.lib event := by
  cases event with
  | start op =>
    cases handled
    rw [device_initiate, device_log]
    rfl
  | post packet =>
    cases handled
    simp [log, device, Device.onEvent, Event.isDevice, Task.isDevice]
  | onState opened detail =>
    cases handled
    rw [device_publishLinkState, device_setLink, device_log]
    rfl
  | onError err =>
    cases handled
    rw [device_publishLinkState, device_setLink, device_log]
    rfl
  | onBytes generation data =>
    rw [device_onPackets _ handled]
    simp [log, device, Device.onEvent, List.filter_cons, Event.isDevice]
  | queued generation packet =>
    cases handled
    simp [log, device, Device.onEvent, Event.isDevice]
  | discarded packet =>
    cases handled
    simp [log, device, Device.onEvent, Event.isDevice]

theorem device_onLink {env : Env} {turn : SerialLink × List LinkEvent} {d t : App}
    (handled : d.onLink env turn = some t) : t.device = d.device.turn env.lib turn := by
  refine Machine.foldlM_invariant
    (motive := fun rest u => rest.foldl (Device.onEvent env.lib) u.device = d.device.turn env.lib turn)
    (fun event rest u v before taken => ?_) turn.2 rfl handled
  rw [← before, List.foldl_cons, device_onLinkEvent taken]

def DeviceSteps (env : Env) (may : Device → Task → Prop) (d t : App) : Prop :=
  ReflTransGen (Device.Step env may) d.device t.device

variable {env : Env} {may : Device → Task → Prop}

theorem DeviceSteps.same {d t : App} (same : t.device = d.device) : DeviceSteps env may d t := by
  rw [DeviceSteps, same]

theorem deviceSteps_start {d t : App} (handled : d.onLink env (d.link.start env.device) = some t) :
    DeviceSteps env may d t := by
  rw [DeviceSteps, device_onLink handled]
  exact .single .start

theorem deviceSteps_stop {d t : App} (handled : d.onLink env d.link.stop = some t) :
    DeviceSteps env may d t := by
  rw [DeviceSteps, device_onLink handled]
  exact .single .stop

theorem deviceSteps_onFrame {d t : App} {frame : Frame} {session : Nat}
    (handled : d.onFrame env frame session = some t) : DeviceSteps env may d t := by
  cases handled_of_onFrame handled with
  | rejected message _ _ => exact .same (device_send _ _ _)
  | @sent m d' _ decoded opened wrote =>
    have nonempty : frame.payload ≠ [] := by
      rintro empty
      have long := decodeMeta_long decoded
      simp [empty] at long
    have announced : ((d'.modifyState fun state => state.onTx frame.payload.length).broadcast
        (makePacketFrame .PacketTx m (text "TX"))).device =
        d'.device.announce frame.payload (makePacketFrame .PacketTx m (text "TX")) :=
      device_broadcast _ _
    -- The write, its count and its notification are one step.
    rw [DeviceSteps, announced, device_onLink wrote]
    exact .single (.write opened nonempty rfl)
  | answered _ _ _ => exact .same (device_send _ _ _)
  | started _ started => exact deviceSteps_start started
  | stopped _ stopped => exact deviceSteps_stop stopped
  | restarted _ stopped started =>
    exact (deviceSteps_stop stopped).trans (deviceSteps_start started)

theorem device_initiates (ops : List SessionOp) (id : Nat) (d : App) :
    ((ops.map (.session id)).foldl initiate d).device = d.device := by
  induction ops generalizing d with
  | nil => rfl
  | cons op ops ih =>
    rw [List.map_cons, List.foldl_cons, ih, device_initiate]
    simp [Op.device?]

theorem device_onSession (d : App) (id : Nat)
    (effects : EventLoop.Effects IpcSession SessionOp SharedBytes) :
    (d.onSession id effects).device = d.device :=
  device_initiates effects.started id _

theorem deviceSteps_decode {d t : App} {id : Nat} {session : IpcSession}
    (handled : d.decode env id session = some t) : DeviceSteps env may d t := by
  simp only [decode, Option.bind_eq_bind, Option.bind_eq_some_iff] at handled
  obtain ⟨⟨found, rxbuf, f⟩, _, handled⟩ := handled
  simp only at handled
  split at handled
  next =>
    cases handled
    exact .same (by rw [device_initiate]; simp [Op.device?, device, setSession])
  next =>
    split at handled
    next =>
      have steps : DeviceSteps env may _ t := deviceSteps_onFrame handled
      exact steps
    next => cases handled; exact .same rfl

theorem deviceSteps_resume {d t : App} {rest : Rest} (handled : d.resume env rest = some t) :
    DeviceSteps env may d t := by
  cases rest with
  | boot =>
    simp only [resume] at handled
    split at handled
    next => cases handled; exact .same rfl
    next => exact deviceSteps_start handled
  | greet id =>
    cases handled
    exact .same (by rw [device_initiate, device_send, device_send]; simp [Op.device?])
  | decode id =>
    simp only [resume] at handled
    split at handled
    next => cases handled; exact .same rfl
    next => exact deviceSteps_decode handled

theorem deviceSteps_runTask {d t : App} {task : Task} (other : task.isDevice = false)
    (handled : d.runTask env task = some t) : DeviceSteps env may d t := by
  cases task with
  | accepted result =>
    simp only [runTask] at handled
    split at handled
    next => cases handled; exact .same (by rw [device_initiate]; simp [Op.device?])
    next => cases handled; exact .same (by simp [device, initiate, Op.device?])
  | session id op result =>
    simp only [runTask] at handled
    split at handled
    next => cases handled; exact .same rfl
    next session _ =>
      split at handled
      next => cases handled; exact .same (device_onSession _ _ _)
      next => cases handled; exact .same rfl
      next =>
        obtain ⟨effects, _, rfl⟩ := Option.map_eq_some_iff.mp handled
        exact .same (device_onSession _ _ _)
  | send id bytes =>
    simp only [runTask] at handled
    split at handled <;> cases handled
    next => exact .same rfl
    next => exact .same (device_onSession _ _ _)
  | link op result => cases other
  | transmit bytes => cases other

-- Every step of the daemon is zero or more steps of the device side.
theorem deviceSteps_step {d t : App} {a : Action} (met : d.Meets may a)
    (taken : step env d a = .next t) : DeviceSteps env may d t := by
  cases a with
  | finish i result =>
    simp only [step] at taken
    split at taken
    next => cases taken
    next op here =>
      split at taken
      next ends =>
        cases taken
        obtain ⟨before, after, ops, erased⟩ := EventLoop.split_eraseIdx here
        cases op with
        | link op =>
          have step : Device.Step env may d.device
              { d.device with
                ops := before.filterMap Op.device? ++ after.filterMap Op.device?
                tasks := d.device.tasks ++ [.link op result] } :=
            .finish (by simp [device, ops, Op.device?]) ends
          rw [DeviceSteps]
          convert ReflTransGen.single step using 1
          simp [device, erased, handlerOf, Task.isDevice]
        | _ =>
          refine .same ?_
          simp only [device, erased, handlerOf]
          rw [ops]
          simp [List.filterMap_cons, Op.device?, Task.isDevice]
      next => cases taken
  | run =>
    simp only [step] at taken
    split at taken
    next rest _ =>
      have steps : DeviceSteps env may _ t := deviceSteps_resume (Machine.outcome_eq_next taken)
      exact steps
    next task ready idle queued =>
      have handled := Machine.outcome_eq_next taken
      simp only [Meets, idle, queued] at met
      cases device : task.isDevice with
      | false =>
        have steps : DeviceSteps env may _ t := deviceSteps_runTask device handled
        have same : { d with ready }.device = d.device := by
          simp [App.device, queued, device]
        rw [DeviceSteps, ← same]
        exact steps
      | true =>
        have front : d.device.tasks = task :: { d with ready }.device.tasks := by
          simp [App.device, queued, device]
        cases task with
        | link op result =>
          rw [DeviceSteps, device_onLink handled]
          exact .single (.handle front (met rfl))
        | transmit packet =>
          rw [DeviceSteps, device_onLink handled]
          exact .single (.transmit front (met rfl))
        | _ => cases device
    next => cases taken

/-- What every step of the device side preserves, every run of the daemon does. -/
theorem device_invariant {inv : Device → Prop}
    (preserved : ∀ dev dev', inv dev → Device.Step env may dev dev' → inv dev') {d t : App}
    (start : inv d.device) (path : Machine.Reaches (step env) (Meets may) d t) : inv t.device := by
  have steps : ∀ s a t, inv (device s) → s.Meets may a → step env s a = .next t → inv (device t) :=
    fun _ _ _ holds met taken => Device.steps_invariant preserved holds (deviceSteps_step met taken)
  exact path.invariant steps start

end App

end ExnGs.Daemon
