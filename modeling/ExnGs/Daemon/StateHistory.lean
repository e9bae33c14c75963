import Mathlib.Algebra.GroupWithZero.Nat
import Mathlib.Data.List.Induction
import ExnGs.Daemon.State

set_option autoImplicit false

-- The store answers as one that has kept all the calls made to it.
namespace ExnGs.Daemon

inductive StateCall
  | setLink (st : LinkState) (detail : Text)
  | onPacket (record : PacketRecord)
  | onTx (bytes : Nat)
  | onDecodeError
  | onFramingError
  deriving DecidableEq, Repr

def StateStore.call (s : StateStore) : StateCall → StateStore
  | .setLink st detail => s.setLink st detail
  | .onPacket record => s.onPacket record
  | .onTx bytes => s.onTx bytes
  | .onDecodeError => s.onDecodeError
  | .onFramingError => s.onFramingError

def StateStore.run (capacity : Nat) (calls : List StateCall) : StateStore :=
  calls.foldl StateStore.call { cap := capacity }

-- What the calls so far say.
namespace StateHistory

def records (calls : List StateCall) : List PacketRecord :=
  calls.filterMap fun
    | .onPacket record => some record
    | _ => none

def sent (calls : List StateCall) : List Nat :=
  calls.filterMap fun
    | .onTx bytes => some bytes
    | _ => none

def links (calls : List StateCall) : List (LinkState × Text) :=
  calls.filterMap fun
    | .setLink st detail => some (st, detail)
    | _ => none

def lastLink (calls : List StateCall) : LinkState × Text :=
  (links calls).getLast?.getD (.Disconnected, [])

def lastSeen (calls : List StateCall) (service : UInt8) : Option ServiceStatus :=
  ((records calls).filter fun record => record.service = service).getLast?.map fun record =>
    { lastSeenNs := record.tsNs }

def last {α : Type} (count : Nat) (xs : List α) : List α := xs.drop (xs.length - count)

def snapshot (calls : List StateCall) : StateSnapshot where
  link := (lastLink calls).1
  linkDetail := (lastLink calls).2
  rxPackets := UInt64.ofNat (records calls).length
  rxBytes := UInt64.ofNat ((records calls).map fun record => record.raw.length).sum
  txPackets := UInt64.ofNat (sent calls).length
  txBytes := UInt64.ofNat (sent calls).sum
  decodeErrors := UInt64.ofNat (calls.count .onDecodeError)
  framingErrors := UInt64.ofNat (calls.count .onFramingError)
  services := lastSeen calls

end StateHistory

open StateHistory

/-- The ring holds the last records, and the snapshot is that of the history. -/
structure StateStore.Reflects (capacity : Nat) (calls : List StateCall) (s : StateStore) : Prop where
  cap : s.cap = capacity
  ring : s.ring = last capacity (records calls)
  snap : s.snap = StateHistory.snapshot calls

theorem last_concat {α : Type} (count : Nat) (xs : List α) (x : α) :
    last count (last count xs ++ [x]) = last count (xs ++ [x]) := by
  simp only [last, List.length_append, List.length_drop, List.length_singleton]
  by_cases few : xs.length ≤ count
  · have all : xs.length - count = 0 := by omega
    rw [all, List.drop_zero, Nat.sub_zero]
  · rw [← List.drop_append_of_le_length (by omega), List.drop_drop]
    congr 1
    omega

theorem last_last {α : Type} (n count : Nat) (xs : List α) :
    last n (last count xs) = last (min n count) xs := by
  simp only [last, List.length_drop, List.drop_drop]
  congr 1
  omega

theorem records_concat (calls : List StateCall) (c : StateCall) :
    records (calls ++ [c]) = records calls ++ records [c] := List.filterMap_append

-- A call that is not about packets leaves the ring and the services alone.
theorem StateStore.Reflects.other {capacity : Nat} {calls : List StateCall} {s t : StateStore}
    (reflects : s.Reflects capacity calls) {c : StateCall} (unrecorded : records [c] = [])
    (cap : t.cap = s.cap) (ring : t.ring = s.ring)
    (snap : t.snap = StateHistory.snapshot (calls ++ [c])) :
    t.Reflects capacity (calls ++ [c]) := by
  refine ⟨cap.trans reflects.cap, ?_, snap⟩
  rw [ring, reflects.ring, records_concat, unrecorded, List.append_nil]

theorem lastSeen_concat (calls : List StateCall) (record : PacketRecord) (service : UInt8) :
    lastSeen (calls ++ [.onPacket record]) service =
      if service = record.service then some { lastSeenNs := record.tsNs }
      else lastSeen calls service := by
  rw [lastSeen, records_concat]
  change (((records calls ++ [record]).filter _).getLast?).map _ = _
  rw [List.filter_append]
  by_cases same : record.service = service
  · rw [List.filter_cons_of_pos (by simpa using same), List.filter_nil, List.getLast?_concat,
      if_pos same.symm]
    rfl
  · rw [List.filter_cons_of_neg (by simpa using same), List.filter_nil, List.append_nil,
      if_neg (Ne.symm same)]
    rfl

-- A call of another kind tells nothing of the services.
theorem lastSeen_other (calls : List StateCall) {c : StateCall} (unrecorded : records [c] = []) :
    lastSeen (calls ++ [c]) = lastSeen calls := by
  funext service
  rw [lastSeen, records_concat, unrecorded, List.append_nil]
  rfl

theorem StateStore.Reflects.packet {capacity : Nat} {calls : List StateCall} {s : StateStore}
    (reflects : s.Reflects capacity calls) (record : PacketRecord) :
    (s.onPacket record).Reflects capacity (calls ++ [.onPacket record]) := by
  obtain ⟨cap, ring, snap⟩ := reflects
  have recorded : records (calls ++ [.onPacket record]) = records calls ++ [record] :=
    records_concat calls _
  refine ⟨cap, ?_, ?_⟩
  · rw [recorded, ← last_concat, ← ring, ← cap]
    rfl
  · have seen : lastSeen (calls ++ [.onPacket record]) = fun service =>
        if service = record.service then some { lastSeenNs := record.tsNs }
        else lastSeen calls service := funext fun service => lastSeen_concat calls record service
    simp [StateStore.onPacket, snap, StateHistory.snapshot, seen, recorded, lastLink, links, sent]

theorem StateStore.Reflects.call {capacity : Nat} {calls : List StateCall} {s : StateStore}
    (reflects : s.Reflects capacity calls) (c : StateCall) :
    (s.call c).Reflects capacity (calls ++ [c]) := by
  have snap := reflects.snap
  cases c with
  | onPacket record => exact reflects.packet record
  | setLink st detail =>
    refine reflects.other rfl rfl rfl ?_
    simp [StateStore.call, StateStore.setLink, snap, StateHistory.snapshot, lastLink, lastSeen_other,
      records, sent, links]
  | onTx bytes =>
    refine reflects.other rfl rfl rfl ?_
    simp [StateStore.call, StateStore.onTx, snap, StateHistory.snapshot, lastLink, lastSeen_other,
      records, sent, links]
  | onDecodeError =>
    refine reflects.other rfl rfl rfl ?_
    simp [StateStore.call, StateStore.onDecodeError, snap, StateHistory.snapshot, lastLink, lastSeen_other,
      records, sent, links]
  | onFramingError =>
    refine reflects.other rfl rfl rfl ?_
    simp [StateStore.call, StateStore.onFramingError, snap, StateHistory.snapshot, lastLink, lastSeen_other,
      records, sent, links]

theorem StateStore.run_reflects (capacity : Nat) (calls : List StateCall) :
    (run capacity calls).Reflects capacity calls := by
  induction calls using List.reverseRecOn with
  | nil => exact ⟨rfl, by simp [run, last, records], rfl⟩
  | append_singleton calls c reflects =>
    rw [run, List.foldl_append]
    exact reflects.call c

-- Asking for as many as are held, or more, is asking for all.
theorem StateStore.lastPackets_eq_last (s : StateStore) (n : Nat) : s.lastPackets n = last n s.ring := by
  rw [lastPackets, last]
  split
  next fits => rw [Nat.sub_eq_zero_of_le fits, List.drop_zero]
  next => rfl

theorem StateStore.last_min {α : Type} (n : Nat) (xs : List α) : last (min n xs.length) xs = last n xs := by
  simp only [last]
  congr 1
  omega

theorem StateStore.refines_history (capacity : Nat) (calls : List StateCall) :
    (∀ n, (run capacity calls).lastPackets n =
      last (min n (min capacity (records calls).length)) (records calls)) ∧
    (run capacity calls).snapshot = StateHistory.snapshot calls := by
  have reflects := run_reflects capacity calls
  refine ⟨fun n => ?_, reflects.snap⟩
  rw [lastPackets_eq_last, reflects.ring, last_last, ← Nat.min_assoc, last_min]

end ExnGs.Daemon
