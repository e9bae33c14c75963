import ExnGs.Ui.IpcClient

set_option autoImplicit false

-- There is always something the client waits for, and never two ways back to a connection.
namespace ExnGs.Ui

open Proto EventLoop

inductive OpKind
  | resolveOrConnect
  | wait
  | read
  | write
  deriving DecidableEq, Repr

namespace ClientOp

def kind : ClientOp → OpKind
  | .resolve _ | .connect _ => .resolveOrConnect
  | .wait => .wait
  | .read _ => .read
  | .write _ _ _ => .write

@[simp] theorem kind_resolve (cancels : Nat) : (resolve cancels).kind = .resolveOrConnect := rfl
@[simp] theorem kind_connect (sock : Nat) : (connect sock).kind = .resolveOrConnect := rfl
@[simp] theorem kind_wait : wait.kind = .wait := rfl
@[simp] theorem kind_read (sock : Option Nat) : (read sock).kind = .read := rfl
@[simp] theorem kind_write (sock clears : Nat) (bytes : SharedBytes) :
    (write sock clears bytes).kind = .write := rfl

-- Started on a socket that has been closed, or on the resolver before it was cancelled.
def abandoned (c : IpcClient) : ClientOp → Bool
  | .resolve cancels => cancels ≠ c.cancels
  | .connect sock => c.sock ≠ some sock
  | .wait => false
  | .read sock => sock = none ∨ c.sock ≠ sock
  | .write sock _ _ => c.sock ≠ some sock

end ClientOp

def outstanding (ops : List ClientOp) (kind : OpKind) : Nat := ops.countP fun op => op.kind = kind

@[simp] theorem outstanding_nil (kind : OpKind) : outstanding [] kind = 0 := rfl

@[simp] theorem outstanding_cons (op : ClientOp) (ops : List ClientOp) (kind : OpKind) :
    outstanding (op :: ops) kind = outstanding ops kind + if op.kind = kind then 1 else 0 := by
  simp [outstanding, List.countP_cons]

@[simp] theorem outstanding_append (ops more : List ClientOp) (kind : OpKind) :
    outstanding (ops ++ more) kind = outstanding ops kind + outstanding more kind :=
  List.countP_append

theorem outstanding_middle (before after : List ClientOp) (op : ClientOp) (kind : OpKind) :
    outstanding (before ++ op :: after) kind = outstanding (op :: (before ++ after)) kind :=
  List.perm_middle.countP_eq _

theorem outstanding_eq_zero {ops : List ClientOp} {kind : OpKind} :
    outstanding ops kind = 0 ↔ ∀ op ∈ ops, op.kind ≠ kind := by
  simp [outstanding, List.countP_eq_zero]

namespace IpcClient

/-- The timer goes off after the second it was set to, by when all that closing the socket and
cancelling the resolver ended has been delivered; nothing cancels the timer. -/
def punctual (c : IpcClient) (rest : List ClientOp) (op : ClientOp) (result : Completion) : Prop :=
  op = .wait → result.isOk = true ∧ ∀ other ∈ rest, other.abandoned c = false

def Timely (l : Loop IpcClient ClientOp SharedBytes Completion) (a : Action Completion Frame) : Prop :=
  Allowed punctual l a

inductive Phase (c : IpcClient) (ops : List ClientOp) : Prop
  | connecting (op : ClientOp) (offline : c.connected = false) (drained : c.txQueue = [])
      (unscheduled : c.reconnectScheduled = false) (towards : op.kind = .resolveOrConnect)
      (only : ops = [op])
  | connected (online : c.connected = true) (unscheduled : c.reconnectScheduled = false)
      (reading : outstanding ops .read = 1) (settled : outstanding ops .resolveOrConnect = 0)
      (still : outstanding ops .wait = 0)
  | waiting (offline : c.connected = false) (closed : c.sock = none) (drained : c.txQueue = [])
      (scheduled : c.reconnectScheduled = true) (waits : outstanding ops .wait = 1)
      (settled : outstanding ops .resolveOrConnect = 0)

theorem doWrite_kind (c : IpcClient) {kind : OpKind} (other : kind ≠ .write) :
    outstanding c.doWrite kind = 0 := by
  unfold doWrite
  split
  next =>
    split
    next => simp [other.symm]
    next => rfl
  next => rfl

-- Whatever else is going on, giving up a connection ends in the one wait.
theorem scheduleReconnect_phase (c : IpcClient) (reason : Text) {rest : List ClientOp}
    (settled : outstanding rest .resolveOrConnect = 0)
    (waits : outstanding rest .wait = if c.reconnectScheduled then 1 else 0) :
    Phase (c.scheduleReconnect reason).state (rest ++ (c.scheduleReconnect reason).started) := by
  rw [scheduleReconnect_state, scheduleReconnect_started]
  refine .waiting rfl rfl rfl rfl ?_ ?_
  · rw [outstanding_append, waits]
    split <;> rfl
  · rw [outstanding_append, settled]
    split <;> rfl

theorem runSend_phase {c : IpcClient} {ops : List ClientOp} (phase : Phase c ops) (bytes : SharedBytes) :
    Phase (c.runSend bytes).state (ops ++ (c.runSend bytes).started) := by
  by_cases refused : c.connected = false ∨ c.sock = none
  · rw [runSend_refused refused]
    simpa using phase
  · have online : c.connected = true := by simpa using (not_or.mp refused).1
    have opened : c.sock.isNone = false := by
      simpa [Option.isSome_iff_ne_none] using (not_or.mp refused).2
    have ran : c.runSend bytes =
        { state := { c with txQueue := c.txQueue ++ [bytes] }
          started := if c.txQueue.isEmpty then doWrite { c with txQueue := c.txQueue ++ [bytes] } else [] } := by
      simp [runSend, online, opened]
    have started : ∀ {kind : OpKind}, kind ≠ .write → outstanding (c.runSend bytes).started kind = 0 := by
      intro kind other
      rw [ran]
      simp only
      split
      next => exact doWrite_kind _ other
      next => rfl
    cases phase with
    | connecting op offline => simp [offline] at online
    | waiting offline => simp [offline] at online
    | connected _ unscheduled reading settled still =>
      have state : (c.runSend bytes).state = { c with txQueue := c.txQueue ++ [bytes] } := by rw [ran]
      rw [state]
      refine .connected online unscheduled ?_ ?_ ?_
      · rw [outstanding_append, reading, started (by decide)]
      · rw [outstanding_append, settled, started (by decide)]
      · rw [outstanding_append, still, started (by decide)]

-- The handlers, by what the client is waiting for.
theorem connecting_handler {c : IpcClient} (offline : c.connected = false) (drained : c.txQueue = [])
    (unscheduled : c.reconnectScheduled = false) {op : ClientOp} (towards : op.kind = .resolveOrConnect)
    {result : Completion} {e : ClientEffects} (handled : c.handler op result = some e) :
    Phase e.state e.started := by
  have retry : ∀ reason, Phase (c.scheduleReconnect reason).state (c.scheduleReconnect reason).started :=
    fun reason => scheduleReconnect_phase c reason (outstanding_nil _) (by simp [unscheduled])
  cases op with
  | resolve cancels =>
    cases handled
    cases result with
    | error message => exact retry _
    | ok data => exact .connecting _ offline drained unscheduled rfl rfl
  | connect sock =>
    cases handled
    cases result with
    | error message => exact retry _
    | ok data =>
      simp only [onConnected, setConnected_state]
      exact .connected rfl unscheduled rfl rfl rfl
  | wait => cases towards
  | read sock => cases towards
  | write sock clears bytes => cases towards

theorem connected_handler {c : IpcClient} (online : c.connected = true)
    (unscheduled : c.reconnectScheduled = false) {rest : List ClientOp} {op : ClientOp}
    (reading : outstanding (op :: rest) .read = 1)
    (settled : outstanding (op :: rest) .resolveOrConnect = 0)
    (still : outstanding (op :: rest) .wait = 0)
    {result : Completion} {e : ClientEffects} (handled : c.handler op result = some e) :
    Phase e.state (rest ++ e.started) := by
  rw [outstanding_cons] at reading settled still
  have unsettled : outstanding rest .resolveOrConnect = 0 := by omega
  have unwaited : outstanding rest .wait = 0 := by omega
  have retry : ∀ reason, Phase (c.scheduleReconnect reason).state
      (rest ++ (c.scheduleReconnect reason).started) :=
    fun reason => scheduleReconnect_phase c reason unsettled (by simp [unwaited, unscheduled])
  cases op with
  | resolve cancels => simp at settled
  | connect sock => simp at settled
  | wait => simp at still
  | read sock =>
    cases result with
    | error message =>
      cases handled
      exact retry _
    | ok data =>
      simp only [handler, onRead, Option.bind_eq_bind, Option.bind_eq_some_iff, Option.pure_def,
        Option.some.injEq] at handled
      obtain ⟨⟨decoded, rxbuf⟩, _, rfl⟩ := handled
      have read : outstanding rest .read = 0 := by simpa using reading
      refine .connected online unscheduled ?_ ?_ ?_ <;> simp [read, unsettled, unwaited]
  | write sock clears bytes =>
    cases result with
    | error message =>
      cases handled
      exact retry _
    | ok data =>
      obtain ⟨first, queue, _, rfl⟩ := onWritten_ok data handled
      have reads : outstanding rest .read = 1 := by simpa using reading
      refine .connected online unscheduled ?_ ?_ ?_ <;> simp [doWrite_kind, reads, unsettled, unwaited]

-- Reads and writes of a closed socket are all that could be left when the wait is over, and none is.
theorem alone_of_timely {c : IpcClient} (closed : c.sock = none) {rest : List ClientOp}
    (settled : outstanding rest .resolveOrConnect = 0) (unwaited : outstanding rest .wait = 0)
    (timely : ∀ other ∈ rest, other.abandoned c = false) : rest = [] := by
  rw [List.eq_nil_iff_forall_not_mem]
  intro other member
  have unconnected := outstanding_eq_zero.mp settled other member
  have unwaited := outstanding_eq_zero.mp unwaited other member
  have left := timely other member
  cases other with
  | resolve cancels => exact unconnected rfl
  | connect sock => exact unconnected rfl
  | wait => exact unwaited rfl
  | read sock => cases sock <;> simp [ClientOp.abandoned, closed] at left
  | write sock clears bytes => simp [ClientOp.abandoned, closed] at left

theorem waiting_handler {c : IpcClient} (offline : c.connected = false) (closed : c.sock = none)
    (drained : c.txQueue = []) (scheduled : c.reconnectScheduled = true)
    {rest : List ClientOp} {op : ClientOp} (waits : outstanding (op :: rest) .wait = 1)
    (settled : outstanding (op :: rest) .resolveOrConnect = 0)
    {result : Completion} (timely : c.punctual rest op result)
    {e : ClientEffects} (handled : c.handler op result = some e) :
    Phase e.state (rest ++ e.started) := by
  rw [outstanding_cons] at waits settled
  have unsettled : outstanding rest .resolveOrConnect = 0 := by omega
  have again : outstanding rest .wait = 1 → ∀ reason, Phase (c.scheduleReconnect reason).state
      (rest ++ (c.scheduleReconnect reason).started) :=
    fun waiting reason => scheduleReconnect_phase c reason unsettled (by simp [waiting, scheduled])
  cases op with
  | resolve cancels => simp at settled
  | connect sock => simp at settled
  | wait =>
    obtain ⟨fired, delivered⟩ := timely rfl
    cases result with
    | error message => cases fired
    | ok data =>
      cases handled
      have unwaited : outstanding rest .wait = 0 := by simpa using waits
      rw [alone_of_timely closed unsettled unwaited delivered]
      exact .connecting _ offline rfl rfl rfl rfl
  | read sock =>
    have waiting : outstanding rest .wait = 1 := by simpa using waits
    cases result with
    | error message =>
      cases handled
      exact again waiting _
    | ok data =>
      simp only [handler, onRead, Option.bind_eq_bind, Option.bind_eq_some_iff, Option.pure_def,
        Option.some.injEq] at handled
      obtain ⟨⟨decoded, rxbuf⟩, _, rfl⟩ := handled
      refine .waiting offline closed drained scheduled ?_ ?_ <;> simp [waiting, unsettled]
  | write sock clears bytes =>
    have waiting : outstanding rest .wait = 1 := by simpa using waits
    cases result with
    | error message =>
      cases handled
      exact again waiting _
    | ok data =>
      obtain ⟨first, queue, held, _⟩ := onWritten_ok data handled
      rw [drained] at held
      cases held

theorem phase_kept : party.Keeps punctual Phase where
  call n c ops frame phase := by
    rw [show (party.call n c frame).started = [] from rfl, List.append_nil]
    exact phase
  closure c ops bytes phase := runSend_phase phase bytes
  handler c before op after result e phase timely handled := by
    simp only [party, Option.map_eq_some_iff] at handled
    obtain ⟨e, handled, rfl⟩ := handled
    cases phase with
    | connecting other offline drained unscheduled towards only =>
      obtain ⟨rfl, rfl, rfl⟩ : before = [] ∧ op = other ∧ after = [] := by
        simpa [List.append_eq_singleton_iff] using only
      exact connecting_handler offline drained unscheduled towards handled
    | connected online unscheduled reading settled still =>
      rw [outstanding_middle] at reading settled still
      exact connected_handler online unscheduled reading settled still handled
    | waiting offline closed drained scheduled waits settled =>
      rw [outstanding_middle] at waits settled
      exact waiting_handler offline closed drained scheduled waits settled timely handled

theorem started_phase (host : Text) (port : UInt16) :
    Phase (started host port).state (started host port).ops :=
  .connecting (.resolve 0) rfl rfl rfl rfl rfl

/-- The client waits for something that brings it back or tells it that it is gone, and for one
such thing only. -/
structure NeverStalls (c : IpcClient) (ops : List ClientOp) : Prop where
  waits : 0 < outstanding ops .resolveOrConnect + outstanding ops .read + outstanding ops .wait
  once : outstanding ops .wait ≤ 1
  apart : outstanding ops .resolveOrConnect = 0 ∨ outstanding ops .wait = 0
  scheduled : c.reconnectScheduled = true ↔ outstanding ops .wait = 1
  drained : c.connected = false → c.txQueue = []

theorem Phase.neverStalls {c : IpcClient} {ops : List ClientOp} (phase : Phase c ops) :
    NeverStalls c ops := by
  cases phase with
  | connecting op offline drained unscheduled towards only =>
    subst only
    refine ⟨?_, ?_, ?_, ?_, fun _ => drained⟩ <;> simp [towards, unscheduled]
  | connected online unscheduled reading settled still =>
    exact ⟨by omega, by omega, .inl settled, by simp [unscheduled, still], by simp [online]⟩
  | waiting offline closed drained scheduled waits settled =>
    exact ⟨by omega, by omega, .inl settled, by simp [scheduled, waits], fun _ => drained⟩

instance (c : IpcClient) (rest : List ClientOp) (op : ClientOp) (result : Completion) :
    Decidable (punctual c rest op result) := inferInstanceAs (Decidable (_ → _ ∧ _))

instance (l : Loop IpcClient ClientOp SharedBytes Completion) (a : Action Completion Frame) :
    Decidable (Timely l a) := inferInstanceAs (Decidable (Allowed punctual l a))

-- A write fails, then the read that had succeeded before is delivered, the next one fails too, and
-- the timer goes off.
def bothFail : List (Action Completion Frame) :=
  [.finish 0 (.ok []), .handler 0, .finish 0 (.ok []), .handler 0,
    .call { type := .Command, payload := packString (text "PING") }, .closure 0,
    .finish 0 (.ok []), .finish 1 (.error []), .handler 1, .handler 0,
    .finish 1 (.error []), .handler 1, .finish 0 (.ok []), .handler 0]

end IpcClient

end ExnGs.Ui
