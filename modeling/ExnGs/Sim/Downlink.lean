import Mathlib.Data.List.Basic
import ExnGs.Lib.Machine

set_option autoImplicit false

-- How the packets that `tm_tx_task` pops reach the connection of the simulator. The task runs beside the
-- event loop, which takes posted lambdas in their order.
namespace ExnGs.Sim

open Machine

-- A packet popped while a client was connected. `connection` is history, which no code reads.
structure TmBytes where
  bytes : List UInt8
  connection : Nat
  deriving DecidableEq, Repr

structure Downlink where
  connected : Bool := false
  -- What `tm_tx_task` holds after it has found `g_connected` set and before it posts its lambda.
  held : Option TmBytes := none
  posted : List TmBytes := []
  -- The writes in progress on `g_sock`, each with the bytes that it has still to send.
  writes : List (List UInt8) := []
  -- History: the connections accepted so far, the bytes put on the last one, and what was popped.
  connections : Nat := 0
  wire : List UInt8 := []
  popped : List TmBytes := []
  deriving DecidableEq, Repr

/-- `transfer` is a part of a write that the transport takes, and `written` the end of a write. A
connection ends with the error that its read reports. -/
inductive DownlinkAction
  | pop (packet : List UInt8)
  | post
  | lambda
  | transfer (i count : Nat)
  | written (i : Nat)
  | accepted
  | readError
  deriving DecidableEq, Repr

namespace Downlink

def step (d : Downlink) : DownlinkAction → Outcome Downlink
  | .pop packet =>
    -- The queue holds no empty packets.
    if d.held.isSome ∨ packet = [] then .disabled
    else if !d.connected then .next d
    else
      let tm := { bytes := packet, connection := d.connections }
      .next { d with held := some tm, popped := d.popped ++ [tm] }
  | .post =>
    match d.held with
    | none => .disabled
    | some tm => .next { d with held := none, posted := d.posted ++ [tm] }
  | .lambda =>
    match d.posted with
    | [] => .disabled
    | tm :: rest =>
      if !d.connected then .next { d with posted := rest }
      else .next { d with posted := rest, writes := d.writes ++ [tm.bytes] }
  | .transfer i count =>
    match d.writes[i]? with
    | none => .disabled
    | some left =>
      if left.length < count then .disabled
      else .next { d with writes := d.writes.set i (left.drop count), wire := d.wire ++ left.take count }
  | .written i =>
    if d.writes[i]? = some [] then .next { d with writes := d.writes.eraseIdx i } else .disabled
  | .accepted =>
    if d.connected then .disabled
    else .next { d with connected := true, connections := d.connections + 1, wire := [] }
  | .readError =>
    if d.connected then .next { d with connected := false, writes := [] } else .disabled

-- The bytes of those packets that were popped during the present connection.
def own (d : Downlink) (packets : List TmBytes) : List UInt8 :=
  (packets.filter fun tm => tm.connection = d.connections).flatMap TmBytes.bytes

-- The packets on their way to `g_sock`, in order.
def waiting (d : Downlink) : List TmBytes := d.posted ++ d.held.toList

/-- While a connection is up, what was popped during it is on the wire, followed by what is left of the
one write in progress and by the packets that are still to be written, in order. -/
def InOrder (d : Downlink) : Prop :=
  d.connected = true → d.writes.length ≤ 1 ∧
    d.own d.popped = d.wire ++ d.writes.flatten ++ d.own d.waiting

instance : DecidablePred InOrder := fun d => inferInstanceAs (Decidable (d.connected = true → _))

-- A lambda that runs during a connection finds no write in progress and brings a packet that was popped
-- during that connection.
def Alone (d : Downlink) : DownlinkAction → Prop
  | .lambda => d.connected = true → ∀ tm, d.posted.head? = some tm →
      d.writes = [] ∧ tm.connection = d.connections
  | _ => True

/-- Packets that wait are not empty and come from this connection or earlier ones. -/
structure Inv (d : Downlink) : Prop where
  inOrder : d.InOrder
  past : ∀ tm ∈ d.popped, tm.connection ≤ d.connections
  coming : ∀ tm ∈ d.waiting, tm.bytes ≠ [] ∧ tm.connection ≤ d.connections
  closed : d.connected = false → d.writes = []

variable {d : Downlink}

theorem own_append (d : Downlink) (left right : List TmBytes) :
    d.own (left ++ right) = d.own left ++ d.own right := by
  simp [own]

theorem own_current {tm : TmBytes} (current : tm.connection = d.connections) (rest : List TmBytes) :
    d.own (tm :: rest) = tm.bytes ++ d.own rest := by
  simp [own, current]

theorem own_stale {tm : TmBytes} (stale : tm.connection ≠ d.connections) (rest : List TmBytes) :
    d.own (tm :: rest) = d.own rest := by
  simp [own, stale]

theorem own_past {packets : List TmBytes} (past : ∀ tm ∈ packets, tm.connection < d.connections) :
    d.own packets = [] := by
  have none : packets.filter (fun tm => tm.connection = d.connections) = [] := by
    rw [List.filter_eq_nil_iff]
    intro tm member current
    have := past tm member
    simp only [decide_eq_true_eq] at current
    omega
  rw [own, none, List.flatMap_nil]

theorem single_write (few : d.writes.length ≤ 1) {i : Nat} {left : List UInt8}
    (here : d.writes[i]? = some left) : i = 0 ∧ d.writes = [left] := by
  obtain ⟨inside, what⟩ := List.getElem?_eq_some_iff.mp here
  obtain rfl : i = 0 := by omega
  obtain ⟨only, writes⟩ := List.length_eq_one_iff.mp (show d.writes.length = 1 by omega)
  simp only [writes, List.getElem_cons_zero] at what
  exact ⟨rfl, what ▸ writes⟩

theorem Inv.pop {t : Downlink} {packet : List UInt8} (inv : d.Inv)
    (taken : d.step (.pop packet) = .next t) : t.Inv := by
  simp only [step] at taken
  split at taken
  next => cases taken
  next free =>
    simp only [not_or, Bool.not_eq_true, Option.isSome_eq_false_iff, Option.isNone_iff_eq_none] at free
    obtain ⟨unheld, long⟩ := free
    split at taken
    next => cases taken; exact inv
    next connected =>
      simp only [Bool.not_eq_true, Bool.not_eq_false'] at connected
      cases taken
      have waits : d.posted ++ [{ bytes := packet, connection := d.connections }] =
          d.waiting ++ [{ bytes := packet, connection := d.connections }] := by
        simp [waiting, unheld]
      refine ⟨fun _ => ⟨(inv.inOrder connected).1, ?_⟩, fun tm member => ?_, fun tm member => ?_,
        inv.closed⟩
      · change d.own (d.popped ++ _) = d.wire ++ d.writes.flatten ++ d.own (d.posted ++ _)
        rw [Option.toList_some, waits, own_append, own_append, (inv.inOrder connected).2,
          List.append_assoc]
      · rcases List.mem_append.mp member with old | new
        · exact inv.past tm old
        · cases List.mem_singleton.mp new
          exact Nat.le_refl _
      · change tm ∈ d.posted ++ _ at member
        rw [Option.toList_some, waits] at member
        rcases List.mem_append.mp member with old | new
        · exact inv.coming tm old
        · rw [List.mem_singleton.mp new]
          exact ⟨long, Nat.le_refl _⟩

theorem Inv.post {t : Downlink} (inv : d.Inv) (taken : d.step .post = .next t) : t.Inv := by
  simp only [step] at taken
  split at taken
  next => cases taken
  next tm held =>
    cases taken
    have waits : waiting { d with held := none, posted := d.posted ++ [tm] } = d.waiting := by
      simp [waiting, held]
    refine ⟨?_, inv.past, ?_, inv.closed⟩
    · rw [InOrder, waits]
      exact inv.inOrder
    · rw [waits]
      exact inv.coming

theorem Inv.lambda {t : Downlink} (inv : d.Inv) (alone : d.Alone .lambda)
    (taken : d.step .lambda = .next t) : t.Inv := by
  simp only [step] at taken
  split at taken
  next => cases taken
  next tm rest posted =>
    have waits : d.waiting = tm :: (rest ++ d.held.toList) := by simp [waiting, posted]
    have left : ∀ other ∈ rest ++ d.held.toList, other.bytes ≠ [] ∧ other.connection ≤ d.connections :=
      fun other member => inv.coming other (by rw [waits]; exact List.mem_cons_of_mem _ member)
    split at taken
    next closed =>
      simp only [Bool.not_eq_true'] at closed
      cases taken
      exact ⟨by simp [InOrder, closed], inv.past, left, inv.closed⟩
    next connected =>
      simp only [Bool.not_eq_true, Bool.not_eq_false'] at connected
      cases taken
      obtain ⟨idle, current⟩ := alone connected tm (by rw [posted]; rfl)
      have inOrder := (inv.inOrder connected).2
      rw [waits, own_current current, idle] at inOrder
      refine ⟨fun _ => ⟨by simp [idle], ?_⟩, inv.past, left, by simp [connected]⟩
      change d.own d.popped = d.wire ++ (d.writes ++ [tm.bytes]).flatten ++ d.own (rest ++ d.held.toList)
      simpa [idle] using inOrder

theorem Inv.transfer {t : Downlink} {i count : Nat} (inv : d.Inv)
    (taken : d.step (.transfer i count) = .next t) : t.Inv := by
  simp only [step] at taken
  split at taken
  next => cases taken
  next left here =>
    split at taken
    next => cases taken
    next =>
      cases taken
      refine ⟨fun connected => ?_, inv.past, inv.coming, fun closed => ?_⟩
      · obtain ⟨few, inOrder⟩ := inv.inOrder connected
        obtain ⟨rfl, writes⟩ := single_write few here
        refine ⟨by simpa using few, ?_⟩
        change d.own d.popped = d.wire ++ left.take count ++ (d.writes.set 0 (left.drop count)).flatten ++
          d.own d.waiting
        rw [inOrder, writes]
        simp
      · rw [inv.closed closed] at here
        cases here

theorem Inv.written {t : Downlink} {i : Nat} (inv : d.Inv) (taken : d.step (.written i) = .next t) :
    t.Inv := by
  simp only [step] at taken
  split at taken
  next here =>
    cases taken
    refine ⟨fun connected => ?_, inv.past, inv.coming, fun closed => ?_⟩
    · obtain ⟨few, inOrder⟩ := inv.inOrder connected
      obtain ⟨rfl, writes⟩ := single_write few here
      rw [writes] at inOrder
      rw [writes]
      exact ⟨Nat.zero_le _, inOrder⟩
    · rw [inv.closed closed] at here
      cases here
  next => cases taken

theorem Inv.accepted {t : Downlink} (inv : d.Inv) (taken : d.step .accepted = .next t) : t.Inv := by
  simp only [step] at taken
  split at taken
  next => cases taken
  next closed =>
    have closed := inv.closed (by simpa using closed)
    cases taken
    have fresh : ∀ packets : List TmBytes, (∀ tm ∈ packets, tm.connection ≤ d.connections) →
        own { d with connected := true, connections := d.connections + 1, wire := [] } packets = [] :=
      fun packets past => own_past fun tm member => Nat.lt_succ_of_le (past tm member)
    refine ⟨fun _ => ⟨by simp [closed], ?_⟩, fun tm member => Nat.le_succ_of_le (inv.past tm member),
      fun tm member => ⟨(inv.coming tm member).1, Nat.le_succ_of_le (inv.coming tm member).2⟩, by simp⟩
    change own _ d.popped = [] ++ d.writes.flatten ++ own _ d.waiting
    rw [fresh d.popped inv.past, fresh d.waiting fun tm member => (inv.coming tm member).2, closed]
    rfl

theorem Inv.readError {t : Downlink} (inv : d.Inv) (taken : d.step .readError = .next t) : t.Inv := by
  simp only [step] at taken
  split at taken
  next =>
    cases taken
    exact ⟨by simp [InOrder], inv.past, inv.coming, fun _ => rfl⟩
  next => cases taken

theorem Inv.step {t : Downlink} {a : DownlinkAction} (inv : d.Inv) (alone : d.Alone a)
    (taken : d.step a = .next t) : t.Inv := by
  cases a with
  | pop packet => exact inv.pop taken
  | post => exact inv.post taken
  | lambda => exact inv.lambda alone taken
  | transfer i count => exact inv.transfer taken
  | written i => exact inv.written taken
  | accepted => exact inv.accepted taken
  | readError => exact inv.readError taken

-- A lambda that does not find its connection to itself breaks the order at once.
theorem alone_of_inOrder {tm : TmBytes} {rest : List TmBytes} (inv : d.Inv)
    (connected : d.connected = true) (posted : d.posted = tm :: rest)
    (inOrder : InOrder { d with posted := rest, writes := d.writes ++ [tm.bytes] }) :
    d.writes = [] ∧ tm.connection = d.connections := by
  obtain ⟨few, now⟩ := inOrder connected
  have before := (inv.inOrder connected).2
  have idle : d.writes = [] := by
    rw [List.length_append, List.length_singleton] at few
    exact List.length_eq_zero_iff.mp (by omega)
  refine ⟨idle, ?_⟩
  by_contra stale
  have waits : d.waiting = tm :: (rest ++ d.held.toList) := by simp [waiting, posted]
  have nonempty := (inv.coming tm (by rw [waits]; exact List.mem_cons_self)).1
  rw [waits, own_stale stale, idle] at before
  change d.own d.popped = d.wire ++ (d.writes ++ [tm.bytes]).flatten ++
    d.own (rest ++ d.held.toList) at now
  rw [before, idle] at now
  -- The bytes of the packet are on both sides or empty.
  have length := congrArg List.length now
  simp at length
  exact nonempty length

theorem after_inOrder_iff {a : DownlinkAction} (inv : d.Inv) :
    After Downlink.step InOrder d a ↔ d.Alone a := by
  constructor
  · intro inOrder
    cases a with
    | lambda =>
      intro connected tm first
      obtain ⟨rest, posted⟩ := List.head?_eq_some_iff.mp first
      refine alone_of_inOrder inv connected posted (inOrder _ ?_)
      simp [Downlink.step, posted, connected]
    | _ => trivial
  · exact fun alone t taken => (inv.step alone taken).inOrder

/-- In every run the bytes of a connection are the packets popped during it, in order, just as long as
each lambda has the connection to itself. -/
theorem along_inOrder_iff (actions : List DownlinkAction) :
    Along step (After step InOrder) {} actions ↔ Along step Alone {} actions :=
  along_iff (fun _ _ => after_inOrder_iff) (fun _ _ _ inv alone taken => inv.step alone taken)
    ⟨by simp [InOrder], by simp, by simp [waiting], fun _ => rfl⟩ actions

-- The transport takes a part of the first packet, and the second is on its way before the rest.
theorem downlink_interleaves :
    ¬ ∀ actions, Along step (After step InOrder) {} actions := by
  intro inOrder
  have run := inOrder [.accepted, .pop [1, 2], .post, .pop [3, 4], .post, .lambda, .transfer 0 1,
    .lambda, .transfer 1 2, .transfer 0 1]
  revert run
  decide +kernel

end Downlink

end ExnGs.Sim
