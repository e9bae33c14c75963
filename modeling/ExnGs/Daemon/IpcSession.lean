import ExnGs.Lib.EventLoop
import ExnGs.Shared.IpcStream

set_option autoImplicit false

namespace ExnGs.Daemon

open Proto EventLoop

structure IpcSession where
  sockOpen : Bool := true
  rxbuf : List UInt8 := []
  txQueue : List SharedBytes := []
  deriving DecidableEq, Repr

inductive SessionOp
  | read
  | write (bytes : SharedBytes)
  deriving DecidableEq, Repr

namespace IpcSession

def send (id : Nat) (f : Frame) : SharedBytes := { id, bytes := encode f }

-- What the handlers do when their operation has failed.
def close (s : IpcSession) : IpcSession := { s with sockOpen := false, txQueue := [] }

def doWrite (s : IpcSession) : List SessionOp :=
  match s.txQueue with
  | [] => []
  | bytes :: _ => if s.sockOpen then [.write bytes] else []

def runSend (s : IpcSession) (bytes : SharedBytes) : Effects IpcSession SessionOp SharedBytes :=
  if !s.sockOpen then { state := s }
  else
    let idle := s.txQueue.isEmpty
    let s := { s with txQueue := s.txQueue ++ [bytes] }
    { state := s, started := if idle then s.doWrite else [] }

-- The handler of `async_write`; `none` is `pop_front` on an empty queue.
def onWritten (s : IpcSession) : Completion → Option (Effects IpcSession SessionOp SharedBytes)
  | .error _ => some { state := s.close }
  | .ok _ =>
    match s.txQueue with
    | [] => none
    | _ :: rest =>
      let s := { s with txQueue := rest }
      some { state := s, started := s.doWrite }

def isRequest (f : Frame) : Bool :=
  f.type = .Command ∨ f.type = .Query ∨ f.type = .PacketSend

/-- The handler of `async_read_some`, with the frames its loop decodes. Frames that their handling
sends back are further calls of `send`: they only post closures. -/
def onRead (s : IpcSession) :
    Completion → Option (Effects IpcSession SessionOp SharedBytes × List Frame)
  | .error _ => some ({ state := s.close }, [])
  | .ok data => do
    let (decoded, rxbuf) ← decodeLoop (s.rxbuf ++ data) .unset
    return ({ state := { s with rxbuf }, started := [.read] }, decoded)

def readAll (s : IpcSession) : List (List UInt8) → Option (IpcSession × List Frame)
  | [] => some (s, [])
  | data :: rest => do
    let now ← s.onRead (.ok data)
    let later ← now.1.state.readAll rest
    return (later.1, now.2 ++ later.2)

theorem readAll_decodeReads (reads : List (List UInt8)) (s : IpcSession) :
    s.readAll reads =
      (decodeReads s.rxbuf reads).map fun read => ({ s with rxbuf := read.2 }, read.1) := by
  induction reads generalizing s with
  | nil => rfl
  | cons data rest ih =>
    simp only [readAll, onRead, decodeReads, Option.bind_eq_bind, Option.pure_def]
    cases decodeLoop (s.rxbuf ++ data) .unset with
    | none => rfl
    | some now =>
      simp only [Option.bind_some, ih]
      cases decodeReads now.2 rest with
      | none => rfl
      | some later => rfl

theorem readAll_decodeAll (reads : List (List UInt8)) (s : IpcSession)
    (waiting : decodeAll s.rxbuf = ([], s.rxbuf)) (safe : SafeReads s.rxbuf reads) :
    s.readAll reads = some ({ s with rxbuf := (decodeAll (s.rxbuf ++ reads.flatten)).2 },
      (decodeAll (s.rxbuf ++ reads.flatten)).1) := by
  rw [readAll_decodeReads, decodeReads_decodeAll reads waiting safe, Option.map_some]

theorem readAll_safe (reads : List (List UInt8)) (s : IpcSession) {result : IpcSession × List Frame}
    (waiting : decodeAll s.rxbuf = ([], s.rxbuf)) (safe : ¬ Overruns s.rxbuf)
    (ran : s.readAll reads = some result) : SafeReads s.rxbuf reads := by
  rw [readAll_decodeReads] at ran
  obtain ⟨read, ran, _⟩ := Option.map_eq_some_iff.mp ran
  exact decodeReads_safe reads waiting safe ran

def party : Party IpcSession SessionOp SharedBytes Completion Frame where
  call := fun id s f => { state := s, posted := [send id f] }
  closure := runSend
  mayEnd := fun s _ result => !result.isOk || s.sockOpen
  handler := fun s op result =>
    match op with
    | .read => (s.onRead result).map Prod.fst
    | .write _ => s.onWritten result

-- A session after `start`: a read is started and the greeting posted.
def started : Loop IpcSession SessionOp SharedBytes Completion where
  state := {}
  calls := 1
  posted := [send 0 { type := .Hello, payload := packString (text "exn_gsd") }]
  pending := [{ op := .read }]

-- The queue of a session is cleared where its socket is closed, which happens once.
def writer : Writer party where
  queue := txQueue
  epoch := fun s => if s.sockOpen then 0 else 1
  write := fun op =>
    match op with
    | .read => none
    | .write bytes => some (0, bytes)
  succeeded := fun result => result.isOk
  ident := SharedBytes.id
  valid := fun s => s.sockOpen = false → s.txQueue = []

theorem runSend_closed {s : IpcSession} (closed : s.sockOpen = false) (bytes : SharedBytes) :
    s.runSend bytes = { state := s } := by
  simp [runSend, closed]

theorem runSend_queued {s : IpcSession} (opened : s.sockOpen = true) (bytes : SharedBytes) :
    writer.Queued s bytes (s.runSend bytes) := by
  refine ⟨?_, ?_, ?_⟩
  · simp [runSend, opened, writer]
  · simp [runSend, opened, writer]
  · cases queue : s.txQueue <;>
      simp [runSend, opened, writer, Writer.writes, doWrite, queue]

theorem onWritten_ok {s : IpcSession} (data : List UInt8)
    {e : Effects IpcSession SessionOp SharedBytes} (handled : s.onWritten (.ok data) = some e) :
    ∃ bytes rest, s.txQueue = bytes :: rest ∧
      e = { state := { s with txQueue := rest }, started := doWrite { s with txQueue := rest } } := by
  cases queue : s.txQueue with
  | nil => simp [onWritten, queue] at handled
  | cons bytes rest =>
    simp only [onWritten, queue, Option.some.injEq] at handled
    exact ⟨bytes, rest, rfl, handled.symm⟩

theorem close_clears {s : IpcSession} (valid : writer.valid s) :
    let e : Effects IpcSession SessionOp SharedBytes := { state := s.close }
    writer.Cleared s e ∨ writer.Kept s e ∧ s.txQueue = [] := by
  cases opened : s.sockOpen with
  | true => exact Or.inl ⟨rfl, by simp [writer, close, opened], rfl⟩
  | false =>
    have empty := valid opened
    exact Or.inr ⟨⟨empty.symm, by simp [writer, close, opened], rfl⟩, empty⟩

theorem writer_lawful : writer.Lawful where
  call := fun n s f valid => ⟨valid, ⟨rfl, rfl, rfl⟩, send n f, rfl, rfl⟩
  closure := by
    intro s bytes valid
    cases opened : s.sockOpen with
    | false =>
      simp only [party, runSend_closed opened]
      exact ⟨valid, Or.inl ⟨rfl, rfl, rfl⟩, trivial⟩
    | true =>
      refine ⟨?_, Or.inr (runSend_queued opened bytes), ?_⟩ <;>
        simp [party, runSend, opened, writer]
  finish := by
    intro s op result e write valid given succeeded same handled
    cases op with
    | read => cases given
    | write bytes =>
      cases given
      have opened : s.sockOpen = true := by
        by_contra closed
        simp [writer, closed] at same
      cases result with
      | error message => cases succeeded
      | ok data =>
        obtain ⟨first, rest, queue, rfl⟩ := onWritten_ok data handled
        refine ⟨by simp [writer, opened], ⟨by simp [writer, queue], rfl, ?_⟩, rfl⟩
        cases rest <;> simp [writer, Writer.writes, doWrite, opened, queue, WriteQueue.front]
  other := by
    intro s op result e valid otherwise handled
    have closing : ∀ effect : Effects IpcSession SessionOp SharedBytes,
        effect = { state := s.close } →
        writer.valid effect.state ∧ (writer.Cleared s effect ∨ writer.Kept s effect ∧
          ∀ write, writer.write op = some write → write.1 ≠ writer.epoch s ∨ writer.queue s = []) ∧
        effect.posted = [] := by
      rintro _ rfl
      refine ⟨fun _ => rfl, ?_, rfl⟩
      rcases close_clears valid with cleared | ⟨kept, empty⟩
      · exact Or.inl cleared
      · exact Or.inr ⟨kept, fun _ _ => Or.inr empty⟩
    cases op with
    | read =>
      simp only [party, Option.map_eq_some_iff] at handled
      obtain ⟨⟨e, decoded⟩, read, rfl⟩ := handled
      cases result with
      | error message =>
        cases read
        exact closing _ rfl
      | ok data =>
        simp only [onRead, Option.bind_eq_bind, Option.bind_eq_some_iff, Option.pure_def,
          Option.some.injEq, Prod.mk.injEq] at read
        obtain ⟨⟨decoded, rxbuf⟩, _, rfl, rfl⟩ := read
        exact ⟨valid, Or.inr ⟨⟨rfl, rfl, rfl⟩, fun write given => by cases given⟩, rfl⟩
    | write bytes =>
      cases result with
      | error message =>
        cases handled
        exact closing _ rfl
      | ok data =>
        rcases otherwise with noWrite | failed
        · cases noWrite
        · cases failed

theorem started_inv : writer.Inv started := by
  refine ⟨nofun, ⟨rfl, nofun, nofun, List.nodup_singleton _, ?_⟩, ?_, nofun, nofun⟩
  · exact fun buffer _ => ⟨nofun, nofun⟩
  · intro buffer posted
    rw [List.mem_singleton.mp posted]
    exact Nat.one_pos

-- If the action is the handler of a write that succeeded, its `pop_front` takes the buffer that was
-- written.
def PopsItsBuffer (l : Loop IpcSession SessionOp SharedBytes Completion)
    (a : Action Completion Frame) : Prop :=
  ∀ i bytes data, a = .handler i →
    l.pending[i]? = some { op := .write bytes, result := some (.ok data) } →
    l.state.txQueue.head? = some bytes

-- If the action is the handler of a write that succeeded, the socket is still open.
def WrittenWhileOpen (l : Loop IpcSession SessionOp SharedBytes Completion)
    (a : Action Completion Frame) : Prop :=
  ∀ i bytes data, a = .handler i →
    l.pending[i]? = some { op := .write bytes, result := some (.ok data) } →
    l.state.sockOpen = true

theorem handles_iff (l : Loop IpcSession SessionOp SharedBytes Completion)
    (a : Action Completion Frame) (write : Nat × SharedBytes) :
    writer.Handles l a write ↔ write.1 = 0 ∧ ∃ i data, a = .handler i ∧
      l.pending[i]? = some { op := .write write.2, result := some (.ok data) } := by
  constructor
  · rintro ⟨i, op, result, rfl, here, given, succeeded⟩
    cases op with
    | read => cases given
    | write bytes =>
      cases given
      cases result with
      | error message => cases succeeded
      | ok data => exact ⟨rfl, i, data, rfl, here⟩
  · obtain ⟨epoch, bytes⟩ := write
    rintro ⟨rfl, i, data, rfl, here⟩
    exact ⟨i, _, _, rfl, here, rfl, rfl⟩

theorem findsItsBuffer_eq : writer.FindsItsBuffer = PopsItsBuffer := by
  funext l a
  refine propext ⟨fun finds i bytes data handled here => ?_, fun pops write handles => ?_⟩
  · exact finds (0, bytes) ((handles_iff l a _).mpr ⟨rfl, i, data, handled, here⟩)
  · obtain ⟨_, i, data, handled, here⟩ := (handles_iff l a write).mp handles
    exact pops i write.2 data handled here

theorem sameEpoch_eq : writer.SameEpoch = WrittenWhileOpen := by
  funext l a
  have epoch : 0 = writer.epoch l.state ↔ l.state.sockOpen = true := by
    cases opened : l.state.sockOpen <;> simp [writer, opened]
  refine propext ⟨fun same i bytes data handled here => ?_, fun opened write handles => ?_⟩
  · exact epoch.mp (same (0, bytes) ((handles_iff l a _).mpr ⟨rfl, i, data, handled, here⟩))
  · obtain ⟨first, i, data, handled, here⟩ := (handles_iff l a write).mp handles
    rw [first]
    exact epoch.mpr (opened i write.2 data handled here)

theorem along_popsItsBuffer_iff (actions : List (Action Completion Frame)) :
    Machine.Along (step party) PopsItsBuffer started actions ↔
      Machine.Along (step party) WrittenWhileOpen started actions := by
  rw [← findsItsBuffer_eq, ← sameEpoch_eq]
  exact Writer.along_findsItsBuffer_iff writer_lawful started_inv actions

end IpcSession

end ExnGs.Daemon
