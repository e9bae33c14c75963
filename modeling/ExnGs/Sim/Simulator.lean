import ExnGs.Sim.Reporting
import ExnGs.Sim.Session

set_option autoImplicit false

-- The simulator as a whole: the event loop fills `g_tc_q`, `tc_dispatch_task` empties it and fills
-- `g_tm_q`, and `tm_tx_task` empties that. Each of them may be behind the others.
namespace ExnGs.Sim

open Proto SpacePacket Framer Numbering Pipeline Machine

-- The packets pushed in one turn of the loop of `tc_dispatch_task`. They are built one after the other
-- between the pushes; the clock may read anything at each of them.
def dispatching (lib : CcsdsPack) (now : Nat → UInt64) : Stage DispatchTask TcMessage (List UInt8) where
  accepts := fun _ _ => true
  work := fun task tc =>
    let after := task.dispatch lib now tc
    (after, after.tmQ.drop task.tmQ.length)

-- A `RingQueue<T, 64>` holds 63 elements.
abbrev Simulator := Line Session DispatchTask Arrival TcMessage (List UInt8) 63 63

namespace Simulator

def step (lib : TypedPack) (clock now : Nat → UInt64) :
    Simulator → Pipeline.Action Arrival → Outcome Simulator :=
  Line.step (receiving lib clock) (dispatching lib.toCcsdsPack now)

def started : Simulator := Line.start {} {}

-- The steps that the simulator still takes when no more is received.
def left (lib : TypedPack) (now : Nat → UInt64) (s : Simulator) : Nat :=
  Line.left (dispatching lib.toCcsdsPack now) s

end Simulator

-- The packets with which these requests are answered, each with its count.
def answers (lib : CcsdsPack) (now : Nat → UInt64) (tcs : List TcMessage) : List (List UInt8) :=
  packets lib now 0 (numbered (2 ^ 14) 100 (tcs.map reportsFor))

variable (lib : CcsdsPack) (now : Nat → UInt64)

theorem dispatch_extends (task : DispatchTask) (tc : TcMessage) :
    ∃ made, (task.dispatch lib now tc).tmQ = task.tmQ ++ made := by
  have count : task.tmSeq = UInt16.ofNat task.tmSeq.toNat := UInt16.ofNat_toNat.symm
  have gave := (run_gave lib now [tc] task task.tmSeq.toNat count).tmQ
  exact ⟨_, gave⟩

theorem dispatching_run (tcs : List TcMessage) (task : DispatchTask) :
    ∃ made, (task.run lib now tcs).tmQ = task.tmQ ++ made ∧
      (dispatching lib now).run task tcs = (task.run lib now tcs, made) := by
  induction tcs generalizing task with
  | nil => exact ⟨[], by simp [DispatchTask.run], rfl⟩
  | cons tc rest ih =>
    obtain ⟨first, pushed⟩ := dispatch_extends lib now task tc
    obtain ⟨later, queue, ran⟩ := ih (task.dispatch lib now tc)
    have here : (dispatching lib now).work task tc = (task.dispatch lib now tc, first) := by
      simp only [dispatching, pushed, List.drop_left]
    refine ⟨first ++ later, ?_, ?_⟩
    · rw [DispatchTask.run, List.foldl_cons, ← DispatchTask.run, queue, pushed, List.append_assoc]
    · rw [Stage.run_cons, here, ran]
      rfl

theorem dispatching_answers (tcs : List TcMessage) :
    ((dispatching lib now).run {} tcs).2 = answers lib now tcs := by
  obtain ⟨made, queue, ran⟩ := dispatching_run lib now tcs {}
  have gave := (run_gave lib now tcs {} 100 rfl).tmQ
  rw [ran]
  exact List.append_cancel_left (queue.symm.trans gave)

namespace Simulator

variable {lib : TypedPack} {clock now : Nat → UInt64}

theorem reached_tracks {s : Simulator}
    (reached : Reaches (step lib clock now) (fun _ _ => True) started s) :
    Line.Tracks (receiving lib clock) (dispatching lib.toCcsdsPack now) {} {} s :=
  reached.invariant (fun _ _ _ tracks _ taken => tracks.step taken) (Line.start_tracks _ _ _ _)

-- What the tasks make of all that was received.
theorem made_answers (header : DependsOnHeader lib.declaredPacketSize) {given : List Arrival}
    (accepted : (receiving lib clock).Accepted {} given) :
    ((dispatching lib.toCcsdsPack now).run {} ((receiving lib clock).run {} given).2).2 =
      answers lib.toCcsdsPack now (requests lib clock given) := by
  rw [dispatching_answers, requests, (receiving_hears header accepted).made]

end Simulator

end ExnGs.Sim
