import ExnGs.Daemon.DeviceStream
import ExnGs.Lib.Epochs

set_option autoImplicit false

-- What the link sends in one generation, and in the later ones.
namespace ExnGs.Daemon

open Proto Machine Epochs

-- A packet that enters the queue, with the generation it is queued in.
def LinkEvent.entry : LinkEvent → List (Nat × TxPacket)
  | .queued generation packet => [(generation, packet)]
  | _ => []

variable {events : List LinkEvent} {generations : List Nat}

theorem SerialLink.Turn.entries {device : Nat → SerialOpen} {link : SerialLink}
    {turn : SerialLink × List LinkEvent} (turned : link.Turn device turn) :
    link.generation ≤ turn.1.generation ∧
      ∀ x ∈ turn.2.flatMap LinkEvent.entry, x.1 = turn.1.generation := by
  have none : ∀ {t : SerialLink × List LinkEvent}, t.2.flatMap LinkEvent.entry = [] →
      ∀ x ∈ t.2.flatMap LinkEvent.entry, x.1 = t.1.generation :=
    fun none x member => by rw [none] at member; cases member
  cases turned with
  | start =>
    have started := link.start_cases device
    generalize link.start device = turn at started
    cases started with
    | busy => exact ⟨Nat.le_refl _, none rfl⟩
    | resolving | failed | opened => exact ⟨Nat.le_succ _, none rfl⟩
  | stop => exact ⟨Nat.le_succ _, none rfl⟩
  | handled op result =>
    have handled := link.handler_cases op result
    generalize link.handler op result = turn at handled
    cases handled with
    | @read data _ reads =>
      refine ⟨Nat.le_refl _, none ?_⟩
      split <;> rcases reads with rfl | rfl <;> rfl
    | written writes =>
      refine ⟨Nat.le_refl _, none ?_⟩
      rcases writes with rfl | ⟨later, -, rfl⟩ <;> rfl
    | _ => exact ⟨Nat.le_refl _, none rfl⟩
  | transmitted packet =>
    have ran := link.runWrite_cases packet
    generalize link.runWrite packet = turn at ran
    cases ran with
    | dropped => exact ⟨Nat.le_refl _, none rfl⟩
    | behind | first =>
      refine ⟨Nat.le_refl _, fun x member => ?_⟩
      rw [List.mem_singleton.mp member]

theorem appended_inEpoch (events : List LinkEvent) (g : Nat) :
    events.filterMap (LinkEvent.appended g) = inEpoch g (events.flatMap LinkEvent.entry) := by
  induction events with
  | nil => rfl
  | cons event events ih =>
    rw [List.flatMap_cons, inEpoch_append, ← ih]
    cases event with
    | queued generation packet =>
      by_cases own : generation = g
      · rw [List.filterMap_cons_some (show LinkEvent.appended g (.queued _ _) = _ from if_pos own)]
        simp [LinkEvent.entry, inEpoch, own]
      · rw [List.filterMap_cons_none (show LinkEvent.appended g (.queued _ _) = _ from if_neg own)]
        simp [LinkEvent.entry, inEpoch, own]
    | _ => rfl

theorem entries_decided (events : List LinkEvent) :
    ((events.flatMap LinkEvent.entry).map Prod.snd).Sublist (events.flatMap LinkEvent.decided) := by
  induction events with
  | nil => exact .slnil
  | cons event events ih =>
    rw [List.flatMap_cons, List.map_append, List.flatMap_cons]
    refine List.Sublist.append ?_ ih
    cases event with
    | queued generation packet => exact List.Sublist.refl [packet]
    | discarded packet => exact List.nil_sublist [packet]
    | _ => exact .slnil

/-- Where packets are queued in ascending generations, those of one generation after the other are among
those that were decided on, in that order. -/
theorem appended_ascending (ascending : Ascending (events.flatMap LinkEvent.entry))
    (increasing : generations.Pairwise (· < ·)) :
    (generations.flatMap fun g => events.filterMap (LinkEvent.appended g)).Sublist
      (events.flatMap LinkEvent.decided) := by
  simp only [appended_inEpoch]
  exact (flatMap_inEpoch_sublist ascending increasing).trans (entries_decided events)

namespace App

variable {env : Env} {d t : App}

/-- Packets are queued in ascending generations, none of them to come. -/
structure Ages (d : App) : Prop where
  ascending : Ascending (d.linkEvents.flatMap LinkEvent.entry)
  past : ∀ x ∈ d.linkEvents.flatMap LinkEvent.entry, x.1 ≤ d.link.generation

theorem Ages.kept (ages : d.Ages) (link : t.link = d.link) (same : t.linkEvents = d.linkEvents) : t.Ages := by
  refine ⟨same ▸ ages.ascending, ?_⟩
  rw [same, link]
  exact ages.past

theorem linkEvents_broadcast (d : App) (f : Frame) : (d.broadcast f).linkEvents = d.linkEvents := by
  rw [linkEvents, observed_broadcast (fun _ _ => rfl)]
  simp [linkEvents, Event.ofLink]

theorem linkEvents_greet (d : App) (id : Nat) : (d.greet id).linkEvents = d.linkEvents := by
  simp [linkEvents, greet, App.send, Event.ofLink]

theorem Ages.turned {turn : SerialLink × List LinkEvent} (ages : d.Ages)
    (later : d.link.generation ≤ turn.1.generation)
    (entries : ∀ x ∈ turn.2.flatMap LinkEvent.entry, x.1 = turn.1.generation)
    (handled : d.onLink env turn = some t) : t.Ages := by
  have events : t.linkEvents.flatMap LinkEvent.entry =
      d.linkEvents.flatMap LinkEvent.entry ++ turn.2.flatMap LinkEvent.entry := by
    rw [linkEvents_onLink handled, List.flatMap_append]
  refine ⟨?_, ?_⟩
  · rw [Ascending, events, List.pairwise_append]
    refine ⟨ages.ascending, List.pairwise_of_forall_mem_list fun x here y there => ?_,
      fun x before y here => ?_⟩
    · rw [entries x here, entries y there]
    · rw [entries y here]
      exact Nat.le_trans (ages.past x before) later
  · rw [events, (onLink_keeps handled).1]
    intro x member
    rcases List.mem_append.mp member with before | here
    · exact Nat.le_trans (ages.past x before) later
    · exact Nat.le_of_eq (entries x here)

theorem writeBytes_entries (link : SerialLink) (data : List UInt8) :
    (link.writeBytes data).flatMap LinkEvent.entry = [] := by
  unfold SerialLink.writeBytes
  split <;> rfl

theorem Ages.move {asker : Option Nat} (ages : d.Ages) (move : Move env asker d t) : t.Ages := by
  cases move with
  | quiet same => exact ages.kept same.link (by rw [linkEvents, linkEvents, same.history])
  | answered => exact ages.kept rfl (observed_send (fun _ _ => rfl) d _ _)
  | turned turned _ handled => exact ages.turned turned.entries.1 turned.entries.2 handled
  | @sent d' data m now _ _ _ posted =>
    have none : ∀ x ∈ (d.link.writeBytes data).flatMap LinkEvent.entry, x.1 = d.link.generation := by
      rw [writeBytes_entries]
      exact fun _ member => by cases member
    have wrote := ages.turned (Nat.le_refl _) none posted
    exact wrote.kept (broadcast_link _ _) (linkEvents_broadcast _ _)

theorem ages_step {a : Action} (ages : d.Ages) (taken : step env d a = .next t) : t.Ages :=
  step_preserves (fun _ _ _ before move => before.move move) (fun _ before _ => before.kept rfl rfl)
    (fun d id before _ => before.kept rfl (linkEvents_greet d id)) ages taken

theorem ages_initial (transport : Transport) : (initial transport).Ages :=
  ⟨.nil, fun _ member => by cases member⟩

-- What the link has done stays done.
theorem move_linkEvents {asker : Option Nat} (move : Move env asker d t) : d.linkEvents <+: t.linkEvents := by
  cases move with
  | quiet same =>
    have kept : t.linkEvents = d.linkEvents := by rw [linkEvents, linkEvents, same.history]
    exact kept ▸ List.prefix_rfl
  | @answered id f =>
    have same : (d.send id f).linkEvents = d.linkEvents := observed_send (fun _ _ => rfl) d id f
    exact same ▸ List.prefix_rfl
  | turned _ _ handled =>
    rw [linkEvents_onLink handled]
    exact List.prefix_append _ _
  | @sent d' data m now _ _ _ posted =>
    rw [linkEvents_broadcast]
    change d.linkEvents <+: d'.linkEvents
    rw [linkEvents_onLink posted]
    exact List.prefix_append _ _

theorem step_linkEvents {a : Action} (taken : step env d a = .next t) : d.linkEvents <+: t.linkEvents := by
  let Grown (t : App) : Prop := d.linkEvents <+: t.linkEvents
  have moves : ∀ asker u v, Grown u → Move env asker u v → Grown v :=
    fun _ _ _ before move => List.IsPrefix.trans before (move_linkEvents move)
  have greets : ∀ u id, Grown u → u.greeting = some id → Grown (u.greet id) := by
    intro u id before _
    change d.linkEvents <+: (u.greet id).linkEvents
    rw [linkEvents_greet]
    exact before
  exact step_preserves moves (fun _ before _ => before) greets (List.prefix_refl d.linkEvents) taken

theorem deviceStream_grows (grows : d.linkEvents <+: t.linkEvents) (g : Nat) :
    d.deviceStream g <+: t.deviceStream g := by
  obtain ⟨more, events⟩ := grows
  rw [deviceStream, deviceStream, issued, issued, ← events, List.flatMap_append, List.filterMap_append,
    List.map_append, List.flatten_append]
  exact List.prefix_append _ _

end App

end ExnGs.Daemon
