import ExnGs.Daemon.Generations
import ExnGs.Sim.Simulator

set_option autoImplicit false

-- The daemon, and the simulator as its device at the other end of a TCP link.
namespace ExnGs

open Proto SpacePacket Framer Pipeline Machine Daemon Sim

/-- `accepted` is history: the generations of the daemon's link whose connections the simulator
accepted. -/
structure Rig where
  daemon : App
  sim : Simulator := Simulator.started
  accepted : List Nat := []

namespace Rig

/-- A step of one of the two, or of the connection between them: the simulator accepts the connection of
a generation, reads some of the bytes that are on their way to it, or finds the connection lost. -/
inductive Action
  | daemon (a : App.Action)
  | works (a : Pipeline.Action Arrival)
  | accepts (generation : Nat)
  | refuses
  | reads (count : Nat)
  | loses

-- The bytes on their way to the simulator.
def onTheWay (r : Rig) : List UInt8 :=
  match r.accepted.getLast?, (streams r.sim.given).getLast? with
  | some generation, some heard => (r.daemon.deviceStream generation).drop heard.length
  | _, _ => []

variable (env : Env) (lib : TypedPack) (clock now : Nat → UInt64)

def give (r : Rig) (accepted : List Nat) (arrival : Arrival) : Outcome Rig :=
  match Simulator.step lib clock now r.sim (.give arrival) with
  | .next sim => .next { r with sim, accepted }
  | .undefined => .undefined
  | .disabled => .disabled

def step (r : Rig) : Rig.Action → Outcome Rig
  | .daemon a =>
    match App.step env r.daemon a with
    | .next daemon => .next { r with daemon }
    | .undefined => .undefined
    | .disabled => .disabled
  | .works a =>
    if a.isInner then
      match Simulator.step lib clock now r.sim a with
      | .next sim => .next { r with sim }
      | .undefined => .undefined
      | .disabled => .disabled
    else .disabled
  -- A generation has one connection, and none after that of a later one.
  | .accepts generation =>
    if generation ≤ r.daemon.link.generation ∧ ∀ earlier ∈ r.accepted, earlier < generation then
      r.give lib clock now (r.accepted ++ [generation]) .accepted
    else .disabled
  | .refuses => r.give lib clock now r.accepted .acceptError
  | .reads count =>
    if 0 < count ∧ count ≤ r.onTheWay.length then
      r.give lib clock now r.accepted (.read (r.onTheWay.take count))
    else .disabled
  | .loses => r.give lib clock now r.accepted .readError

def started (transport : Transport) : Rig := { daemon := App.initial transport }

-- The packets whose last bytes have come to the simulator, one connection after the other.
def arrived (r : Rig) : List (List UInt8) :=
  (List.zipWith (fun g heard => whole heard.length ((r.daemon.issued g).map TxPacket.bytes))
    r.accepted (streams r.sim.given)).flatten

variable {env : Env} {lib : TypedPack} {clock now : Nat → UInt64} {transport : Transport} {r r' : Rig}

/-- Both ends are in states that they reach by themselves, and the simulator has heard, connection after
connection, the first of what the daemon has sent in ascending generations. -/
structure Linked (env : Env) (lib : TypedPack) (clock now : Nat → UInt64) (transport : Transport)
    (r : Rig) : Prop where
  daemon : Reaches (App.step env) (fun _ _ => True) (App.initial transport) r.daemon
  sim : Reaches (Simulator.step lib clock now) (fun _ _ => True) Simulator.started r.sim
  ascending : r.accepted.Pairwise (· < ·)
  heard : List.Forall₂ (fun generation heard => heard <+: r.daemon.deviceStream generation) r.accepted
    (streams r.sim.given)

theorem forall₂_concat {α β : Type} {R : α → β → Prop} {xs : List α} {x : α} {ys : List β} {y : β} :
    List.Forall₂ R (xs ++ [x]) (ys ++ [y]) ↔ List.Forall₂ R xs ys ∧ R x y := by
  rw [← List.forall₂_reverse_iff, List.reverse_concat, List.reverse_concat, List.forall₂_cons,
    List.forall₂_reverse_iff, and_comm]

theorem give_given {s s' : Simulator} {arrival : Arrival}
    (taken : Simulator.step lib clock now s (.give arrival) = .next s') : s'.given = s.given ++ [arrival] := by
  cases Line.step_stepped taken with
  | gave => rfl

/-- What each step does to the two ends. -/
inductive Stepped (env : Env) (lib : TypedPack) (clock now : Nat → UInt64) (r : Rig) :
    Rig.Action → Rig → Prop
  | daemon {a : App.Action} {daemon : App} (taken : App.step env r.daemon a = .next daemon) :
      Stepped env lib clock now r (.daemon a) { r with daemon }
  | works {a : Pipeline.Action Arrival} {sim : Simulator} (inner : a.isInner = true)
      (taken : Simulator.step lib clock now r.sim a = .next sim) :
      Stepped env lib clock now r (.works a) { r with sim }
  | accepts {generation : Nat} {sim : Simulator} (past : generation ≤ r.daemon.link.generation)
      (later : ∀ earlier ∈ r.accepted, earlier < generation)
      (given : Simulator.step lib clock now r.sim (.give .accepted) = .next sim) :
      Stepped env lib clock now r (.accepts generation)
        { r with sim, accepted := r.accepted ++ [generation] }
  | refuses {sim : Simulator} (given : Simulator.step lib clock now r.sim (.give .acceptError) = .next sim) :
      Stepped env lib clock now r .refuses { r with sim }
  | reads {count : Nat} {sim : Simulator} (more : 0 < count) (there : count ≤ r.onTheWay.length)
      (given : Simulator.step lib clock now r.sim (.give (.read (r.onTheWay.take count))) = .next sim) :
      Stepped env lib clock now r (.reads count) { r with sim }
  | loses {sim : Simulator} (given : Simulator.step lib clock now r.sim (.give .readError) = .next sim) :
      Stepped env lib clock now r .loses { r with sim }

theorem give_next {accepted : List Nat} {arrival : Arrival}
    (taken : r.give lib clock now accepted arrival = .next r') :
    ∃ sim, Simulator.step lib clock now r.sim (.give arrival) = .next sim ∧ r' = { r with sim, accepted } := by
  unfold Rig.give at taken
  split at taken
  next sim given =>
    cases taken
    exact ⟨sim, given, rfl⟩
  next => cases taken
  next => cases taken

theorem step_stepped {a : Action} (taken : r.step env lib clock now a = .next r') :
    r.Stepped env lib clock now a r' := by
  cases a with
  | daemon a =>
    simp only [Rig.step] at taken
    split at taken <;> cases taken
    next stepped => exact .daemon stepped
  | works a =>
    simp only [Rig.step] at taken
    split at taken
    next inner =>
      split at taken <;> cases taken
      next worked => exact .works inner worked
    next => cases taken
  | accepts generation =>
    simp only [Rig.step] at taken
    split at taken
    next may =>
      obtain ⟨sim, given, rfl⟩ := give_next taken
      exact .accepts may.1 may.2 given
    next => cases taken
  | refuses =>
    obtain ⟨sim, given, rfl⟩ := give_next taken
    exact .refuses given
  | reads count =>
    simp only [Rig.step] at taken
    split at taken
    next may =>
      obtain ⟨sim, given, rfl⟩ := give_next taken
      exact .reads may.1 may.2 given
    next => cases taken
  | loses =>
    obtain ⟨sim, given, rfl⟩ := give_next taken
    exact .loses given

-- What an arrival does to the link, if the streams that it leaves are on their way.
theorem Linked.give {accepted : List Nat} {arrival : Arrival} {sim : Simulator}
    (linked : r.Linked env lib clock now transport) (ascending : accepted.Pairwise (· < ·))
    (heard : List.Forall₂ (fun generation heard => heard <+: r.daemon.deviceStream generation) accepted
      (hear (streams r.sim.given) arrival))
    (given : Simulator.step lib clock now r.sim (.give arrival) = .next sim) :
    Linked env lib clock now transport { r with sim, accepted } := by
  refine ⟨linked.daemon, linked.sim.tail trivial given, ascending, ?_⟩
  rw [give_given given, streams_concat]
  exact heard

theorem Linked.accepts {generation : Nat} {sim : Simulator} (linked : r.Linked env lib clock now transport)
    (later : ∀ earlier ∈ r.accepted, earlier < generation)
    (given : Simulator.step lib clock now r.sim (.give .accepted) = .next sim) :
    Linked env lib clock now transport { r with sim, accepted := r.accepted ++ [generation] } := by
  refine linked.give ?_ ?_ given
  · rw [List.pairwise_append]
    refine ⟨linked.ascending, List.pairwise_singleton _ _, fun earlier member g here => ?_⟩
    rw [List.mem_singleton.mp here]
    exact later earlier member
  · exact List.rel_append linked.heard (.cons List.nil_prefix .nil)

theorem Linked.reads {count : Nat} {sim : Simulator} (linked : r.Linked env lib clock now transport)
    (more : 0 < count) (there : count ≤ r.onTheWay.length)
    (given : Simulator.step lib clock now r.sim (.give (.read (r.onTheWay.take count))) = .next sim) :
    Linked env lib clock now transport { r with sim } := by
  refine linked.give linked.ascending ?_ given
  have heard := linked.heard
  unfold onTheWay at there ⊢
  split at there
  next generation stream last latest =>
    obtain ⟨past, accepted⟩ := List.getLast?_eq_some_iff.mp last
    obtain ⟨before, heardNow⟩ := List.getLast?_eq_some_iff.mp latest
    rw [accepted, heardNow, forall₂_concat] at heard
    obtain ⟨earlier, ⟨coming, stream'⟩⟩ := heard
    rw [hear, heardNow, List.dropLast_concat, List.getLastD_concat, accepted, forall₂_concat]
    refine ⟨earlier, ?_⟩
    rw [← stream', List.drop_left]
    exact (List.prefix_append_right_inj stream).mpr (List.take_prefix count coming)
  next =>
    exact absurd (Nat.lt_of_lt_of_le more there) (Nat.lt_irrefl 0)

theorem Linked.step {a : Action} (linked : r.Linked env lib clock now transport)
    (taken : r.step env lib clock now a = .next r') : r'.Linked env lib clock now transport := by
  cases step_stepped taken with
  | daemon stepped =>
    refine ⟨linked.daemon.tail trivial stepped, linked.sim, linked.ascending, ?_⟩
    exact linked.heard.imp fun generation heard first =>
      first.trans (App.deviceStream_grows (App.step_linkEvents stepped) generation)
  | works inner worked =>
    refine ⟨linked.daemon, linked.sim.tail trivial worked, linked.ascending, ?_⟩
    rw [(Line.step_left inner worked).2]
    exact linked.heard
  | accepts past later given => exact linked.accepts later given
  | refuses given =>
    have same : hear (streams r.sim.given) .acceptError = streams r.sim.given := rfl
    exact linked.give linked.ascending (same ▸ linked.heard) given
  | reads more there given => exact linked.reads more there given
  | loses given =>
    have same : hear (streams r.sim.given) .readError = streams r.sim.given := rfl
    exact linked.give linked.ascending (same ▸ linked.heard) given

theorem linked_started (env : Env) (lib : TypedPack) (clock now : Nat → UInt64) (transport : Transport) :
    (started transport).Linked env lib clock now transport := ⟨.refl, .refl, .nil, .nil⟩

theorem flatten_zipWith_sublist {α β γ : Type} {f : α → β → List γ} {g : α → List γ}
    (each : ∀ x y, (f x y).Sublist (g x)) (xs : List α) (ys : List β) :
    (List.zipWith f xs ys).flatten.Sublist (xs.flatMap g) := by
  induction xs generalizing ys with
  | nil => exact List.nil_sublist _
  | cons x xs ih =>
    cases ys with
    | nil => exact List.nil_sublist _
    | cons y ys =>
      rw [List.zipWith_cons_cons, List.flatten_cons, List.flatMap_cons]
      exact (each x y).append (ih ys)

-- What has come was passed on by clients, in this order, and each packet once.
theorem Linked.arrived_posted (linked : r.Linked env lib clock now transport) :
    r.arrived.Sublist (r.daemon.posted.map TxPacket.bytes) := by
  have ages := linked.daemon.invariant (fun _ _ _ before _ taken => App.ages_step before taken)
    (App.ages_initial transport)
  have each : ∀ generation (heard : List UInt8),
      (whole heard.length ((r.daemon.issued generation).map TxPacket.bytes)).Sublist
        ((r.daemon.appended generation).map TxPacket.bytes) := by
    intro generation heard
    have first := (App.issued_appended linked.daemon generation).map TxPacket.bytes
    exact ((whole_first heard.length _).trans first).sublist
  have appended := appended_ascending ages.ascending linked.ascending
  have decided : r.daemon.decided.Sublist r.daemon.posted := by
    rw [← App.inTurn_reached linked.daemon]
    exact List.sublist_append_left _ _
  have all := (appended.trans decided).map TxPacket.bytes
  rw [List.map_flatMap] at all
  exact (flatten_zipWith_sublist each _ _).trans all

-- What has come is what the framers of the connections hand on.
theorem Linked.arrived_framed (linked : r.Linked env lib clock now transport) (same : env.lib = lib.toCcsdsPack)
    (header : DependsOnHeader lib.declaredPacketSize) (length : DeclaresLength lib.declaredPacketSize) :
    (streams r.sim.given).flatMap (framed lib) = r.arrived := by
  have each : ∀ generation heard, heard <+: r.daemon.deviceStream generation →
      framed lib heard = whole heard.length ((r.daemon.issued generation).map TxPacket.bytes) := by
    intro generation heard first
    have declared := App.issued_declared linked.daemon generation
    rw [same] at declared
    obtain ⟨part, -, pushed⟩ := pushAll_stream header length declared [heard] (by rwa [List.flatten_singleton])
    rw [List.flatten_singleton] at pushed
    have packets := congrArg Prod.snd pushed
    simp only [pushAll, List.append_nil] at packets
    exact packets
  have heard := linked.heard
  unfold arrived
  generalize r.accepted = generations at heard
  generalize streams r.sim.given = heardAll at heard
  induction heard with
  | nil => rfl
  | cons first _ ih =>
    rw [List.flatMap_cons, List.zipWith_cons_cons, List.flatten_cons, each _ _ first, ih]

end Rig

def typedEnv : Env := { benchEnv with lib := Reference.typedPack.toCcsdsPack }

def rigStep : Rig → Rig.Action → Outcome Rig :=
  Rig.step typedEnv Reference.typedPack (fun _ => 0) fun _ => 0

-- A client asks for the system housekeeping; the request comes to the simulator in two pieces.
def hkAnswered : List Rig.Action :=
  (clientSends [.finish 1 (.ok []), .run, .finish 1 (.ok []), .run]
      [{ type := .PacketSend, payload := systemHkTc }] ++ [App.Action.run]).map .daemon ++
    [.accepts 1, .reads 5, .reads (systemHkTc.length - 5), .works .send, .works .pass, .works .finish,
      .works .take, .works .finish, .works .take]

end ExnGs
