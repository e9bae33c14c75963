import ExnGs.Lib.EventLoop
import ExnGs.Shared.IpcStream

set_option autoImplicit false

namespace ExnGs.Ui

open Proto EventLoop

structure IpcClient where
  host : Text
  port : UInt16
  connected : Bool := false
  reconnectScheduled : Bool := false
  -- The open socket: `sockets` counts those opened so far.
  sock : Option Nat := none
  sockets : Nat := 0
  -- How often `resolver_.cancel()` was called.
  cancels : Nat := 0
  rxbuf : List UInt8 := []
  txQueue : List SharedBytes := []
  -- History, which no code reads: how often `tx_queue_` was cleared.
  clears : Nat := 0
  deriving DecidableEq, Repr

/-- An asynchronous operation of the client, on the resolver or the socket that was there when it
was started. A write also carries how often the queue had been cleared then. -/
inductive ClientOp
  | resolve (cancels : Nat)
  | connect (sock : Nat)
  | wait
  | read (sock : Option Nat)
  | write (sock : Nat) (clears : Nat) (bytes : SharedBytes)
  deriving DecidableEq, Repr

inductive Notice
  | connectionState (connected : Bool) (detail : Text)
  | frame (f : Frame)
  deriving DecidableEq, Repr

structure ClientEffects extends Effects IpcClient ClientOp SharedBytes where
  notices : List Notice := []

namespace IpcClient

def setConnected (c : IpcClient) (connected : Bool) (detail : Text) : IpcClient × List Notice :=
  if c.connected = connected ∧ connected then (c, [])
  else ({ c with connected }, [.connectionState connected detail])

def doConnect (c : IpcClient) : ClientEffects where
  state := { c with reconnectScheduled := false, sock := none, rxbuf := [], txQueue := []
                    clears := c.clears + 1 }
  started := [.resolve c.cancels]

def scheduleReconnect (c : IpcClient) (reason : Text) : ClientEffects :=
  let c := { c with cancels := c.cancels + 1, sock := none, txQueue := [], clears := c.clears + 1
                    rxbuf := [] }
  let (c, notices) := c.setConnected false reason
  if c.reconnectScheduled then { state := c, notices }
  else { state := { c with reconnectScheduled := true }, started := [.wait], notices }

def onWait (c : IpcClient) : Completion → ClientEffects
  | .error _ => { state := c }
  | .ok _ => c.doConnect

-- `async_connect` opens the socket.
def onResolved (c : IpcClient) : Completion → ClientEffects
  | .error message => c.scheduleReconnect (text "resolve failed: " ++ message)
  | .ok _ =>
    { state := { c with sock := some c.sockets, sockets := c.sockets + 1 }
      started := [.connect c.sockets] }

def onConnected (c : IpcClient) : Completion → ClientEffects
  | .error message => c.scheduleReconnect (text "connect failed: " ++ message)
  | .ok _ =>
    let (c, notices) := c.setConnected true (c.host ++ text ":" ++ text (toString c.port.toNat))
    { state := c, started := [.read c.sock], notices }

def onRead (c : IpcClient) : Completion → Option ClientEffects
  | .error message => some (c.scheduleReconnect (text "connection lost: " ++ message))
  | .ok data => do
    let (decoded, rxbuf) ← decodeLoop (c.rxbuf ++ data) .unset
    return { state := { c with rxbuf }, started := [.read c.sock], notices := decoded.map .frame }

def sendFrame (id : Nat) (frame : Frame) : SharedBytes := { id, bytes := encode frame }

def doWrite (c : IpcClient) : List ClientOp :=
  match c.txQueue, c.sock with
  | bytes :: _, some sock => if c.connected then [.write sock c.clears bytes] else []
  | _, _ => []

def runSend (c : IpcClient) (bytes : SharedBytes) : ClientEffects :=
  if !c.connected || c.sock.isNone then { state := c }
  else
    let idle := c.txQueue.isEmpty
    let c := { c with txQueue := c.txQueue ++ [bytes] }
    { state := c, started := if idle then c.doWrite else [] }

-- The handler of `async_write`; `none` is `pop_front` on an empty queue.
def onWritten (c : IpcClient) : Completion → Option ClientEffects
  | .error message => some (c.scheduleReconnect (text "write failed: " ++ message))
  | .ok _ =>
    match c.txQueue with
    | [] => none
    | _ :: rest =>
      let c := { c with txQueue := rest }
      some { state := c, started := c.doWrite }

def sendCommand (id : Nat) (cmd : Text) : SharedBytes :=
  sendFrame id { type := .Command, payload := packString cmd }

def sendPacket (id : Nat) (packet : List UInt8) : SharedBytes :=
  sendFrame id { type := .PacketSend, payload := packet }

def readAll (c : IpcClient) : List (List UInt8) → Option (IpcClient × List Notice)
  | [] => some (c, [])
  | data :: rest => do
    let now ← c.onRead (.ok data)
    let later ← now.state.readAll rest
    return (later.1, now.notices ++ later.2)

theorem readAll_decodeReads (reads : List (List UInt8)) (c : IpcClient) :
    c.readAll reads =
      (decodeReads c.rxbuf reads).map fun read =>
        ({ c with rxbuf := read.2 }, read.1.map .frame) := by
  induction reads generalizing c with
  | nil => rfl
  | cons data rest ih =>
    simp only [readAll, onRead, decodeReads, Option.bind_eq_bind, Option.pure_def]
    cases decodeLoop (c.rxbuf ++ data) .unset with
    | none => rfl
    | some now =>
      simp only [Option.bind_some, ih]
      cases decodeReads now.2 rest with
      | none => rfl
      | some later => simp

theorem readAll_decodeAll (reads : List (List UInt8)) (c : IpcClient)
    (waiting : decodeAll c.rxbuf = ([], c.rxbuf)) (safe : SafeReads c.rxbuf reads) :
    c.readAll reads = some ({ c with rxbuf := (decodeAll (c.rxbuf ++ reads.flatten)).2 },
      (decodeAll (c.rxbuf ++ reads.flatten)).1.map .frame) := by
  rw [readAll_decodeReads, decodeReads_decodeAll reads waiting safe, Option.map_some]

theorem readAll_safe (reads : List (List UInt8)) (c : IpcClient) {result : IpcClient × List Notice}
    (waiting : decodeAll c.rxbuf = ([], c.rxbuf)) (safe : ¬ Overruns c.rxbuf)
    (ran : c.readAll reads = some result) : SafeReads c.rxbuf reads := by
  rw [readAll_decodeReads] at ran
  obtain ⟨read, ran, _⟩ := Option.map_eq_some_iff.mp ran
  exact decodeReads_safe reads waiting safe ran

-- An operation succeeds only while what it was started on is still there.
def mayEnd (c : IpcClient) (op : ClientOp) (result : Completion) : Bool :=
  match result, op with
  | .error _, _ => true
  | .ok _, .resolve cancels => cancels = c.cancels
  | .ok _, .connect sock => c.sock = some sock
  | .ok _, .wait => true
  | .ok _, .read sock => sock.isSome ∧ c.sock = sock
  | .ok _, .write sock _ _ => c.sock = some sock

def handler (c : IpcClient) : ClientOp → Completion → Option ClientEffects
  | .resolve _, result => some (c.onResolved result)
  | .connect _, result => some (c.onConnected result)
  | .wait, result => some (c.onWait result)
  | .read _, result => c.onRead result
  | .write _ _ _, result => c.onWritten result

def party : Party IpcClient ClientOp SharedBytes Completion Frame where
  call := fun id c frame => { state := c, posted := [sendFrame id frame] }
  closure := fun c bytes => (c.runSend bytes).toEffects
  mayEnd := mayEnd
  handler := fun c op result => (c.handler op result).map ClientEffects.toEffects

def started (host : Text) (port : UInt16) : Loop IpcClient ClientOp SharedBytes Completion :=
  let effects := doConnect { host, port }
  { state := effects.state, pending := effects.started.map fun op => { op } }

def writer : Writer party where
  queue := txQueue
  epoch := clears
  write := fun op =>
    match op with
    | .write _ clears bytes => some (clears, bytes)
    | _ => none
  succeeded := fun result => result.isOk
  ident := SharedBytes.id
  valid := fun c => c.txQueue ≠ [] → c.connected = true ∧ c.sock.isSome = true

theorem setConnected_state (c : IpcClient) (connected : Bool) (detail : Text) :
    (c.setConnected connected detail).1 = { c with connected } := by
  unfold setConnected
  split
  next same => rw [← same.1]
  next => rfl

theorem scheduleReconnect_state (c : IpcClient) (reason : Text) :
    (c.scheduleReconnect reason).state =
      { c with cancels := c.cancels + 1, sock := none, txQueue := [], clears := c.clears + 1
               rxbuf := [], connected := false, reconnectScheduled := true } := by
  simp only [scheduleReconnect, setConnected_state]
  split
  next waiting => simp only [← waiting]
  next => rfl

theorem scheduleReconnect_started (c : IpcClient) (reason : Text) :
    (c.scheduleReconnect reason).started = if c.reconnectScheduled then [] else [.wait] := by
  simp only [scheduleReconnect, setConnected_state]
  split <;> rfl

theorem scheduleReconnect_posted (c : IpcClient) (reason : Text) :
    (c.scheduleReconnect reason).posted = [] := by
  simp only [scheduleReconnect]
  split <;> rfl

theorem scheduleReconnect_cleared (c : IpcClient) (reason : Text) :
    writer.Cleared c (c.scheduleReconnect reason).toEffects := by
  refine ⟨?_, ?_, ?_⟩
  · simp [writer, scheduleReconnect_state]
  · simp [writer, scheduleReconnect_state]
  · rw [scheduleReconnect_started]
    split <;> rfl

theorem doConnect_cleared (c : IpcClient) : writer.Cleared c c.doConnect.toEffects :=
  ⟨rfl, rfl, rfl⟩

theorem Cleared.valid {c : IpcClient} {e : Effects IpcClient ClientOp SharedBytes}
    (cleared : writer.Cleared c e) : writer.valid e.state :=
  fun busy => absurd cleared.queue busy

theorem runSend_refused {c : IpcClient} (refused : c.connected = false ∨ c.sock = none)
    (bytes : SharedBytes) : c.runSend bytes = { state := c } := by
  rcases refused with off | closed
  · simp [runSend, off]
  · simp [runSend, closed]

theorem runSend_queued {c : IpcClient} {sock : Nat} (connected : c.connected = true)
    (opened : c.sock = some sock) (bytes : SharedBytes) :
    writer.Queued c bytes (c.runSend bytes).toEffects := by
  refine ⟨?_, ?_, ?_⟩
  · simp [runSend, connected, opened, writer]
  · simp [runSend, connected, opened, writer]
  · cases queue : c.txQueue <;>
      simp [runSend, connected, opened, writer, Writer.writes, doWrite, queue]

theorem onWritten_ok {c : IpcClient} (data : List UInt8) {e : ClientEffects}
    (handled : c.onWritten (.ok data) = some e) :
    ∃ bytes rest, c.txQueue = bytes :: rest ∧
      e = { state := { c with txQueue := rest }, started := doWrite { c with txQueue := rest } } := by
  cases queue : c.txQueue with
  | nil => simp [onWritten, queue] at handled
  | cons bytes rest =>
    simp only [onWritten, queue, Option.some.injEq] at handled
    exact ⟨bytes, rest, rfl, handled.symm⟩

theorem writer_lawful : writer.Lawful where
  call := fun n c frame valid => ⟨valid, ⟨rfl, rfl, rfl⟩, sendFrame n frame, rfl, rfl⟩
  closure := by
    intro c bytes valid
    by_cases refused : c.connected = false ∨ c.sock = none
    · simp only [party, runSend_refused refused]
      exact ⟨valid, Or.inl ⟨rfl, rfl, rfl⟩, trivial⟩
    · obtain ⟨connected, opened⟩ := not_or.mp refused
      obtain ⟨sock, opened⟩ := Option.ne_none_iff_exists'.mp opened
      have connected : c.connected = true := by simpa using connected
      refine ⟨?_, Or.inr (runSend_queued connected opened bytes), ?_⟩ <;>
        simp [party, runSend, connected, opened, writer]
  finish := by
    intro c op result e write valid given succeeded same handled
    cases op with
    | write sock clears bytes =>
      cases given
      cases result with
      | error message => cases succeeded
      | ok data =>
        simp only [party, Option.map_eq_some_iff] at handled
        obtain ⟨e, handled, rfl⟩ := handled
        obtain ⟨first, rest, queue, rfl⟩ := onWritten_ok data handled
        have busy : c.txQueue ≠ [] := by simp [queue]
        obtain ⟨connected, opened⟩ := valid busy
        obtain ⟨current, opened⟩ := Option.isSome_iff_exists.mp opened
        refine ⟨fun _ => ⟨connected, by simp [opened]⟩, ⟨by simp [writer, queue], rfl, ?_⟩, rfl⟩
        cases rest <;>
          simp [writer, Writer.writes, doWrite, connected, opened, queue, WriteQueue.front]
    | _ => cases given
  other := by
    intro c op result e valid otherwise handled
    simp only [party, Option.map_eq_some_iff] at handled
    obtain ⟨e, handled, rfl⟩ := handled
    have clearing : ∀ effect : ClientEffects, writer.Cleared c effect.toEffects →
        effect.posted = [] →
        writer.valid effect.state ∧ (writer.Cleared c effect.toEffects ∨
          writer.Kept c effect.toEffects ∧ ∀ write, writer.write op = some write →
            write.1 ≠ writer.epoch c ∨ writer.queue c = []) ∧ effect.posted = [] :=
      fun effect cleared none => ⟨Cleared.valid cleared, Or.inl cleared, none⟩
    have silent : ∀ {op : ClientOp}, writer.write op = none →
        ∀ write, writer.write op = some write → write.1 ≠ writer.epoch c ∨ writer.queue c = [] := by
      intro op none write writes
      rw [none] at writes
      cases writes
    have retry := fun reason => clearing _ (scheduleReconnect_cleared c reason)
      (scheduleReconnect_posted c reason)
    cases op with
    | resolve cancels =>
      cases handled
      cases result with
      | error message => exact retry _
      | ok data =>
        exact ⟨fun busy => ⟨(valid busy).1, rfl⟩, Or.inr ⟨⟨rfl, rfl, rfl⟩, silent rfl⟩, rfl⟩
    | connect sock =>
      cases handled
      cases result with
      | error message => exact retry _
      | ok data =>
        simp only [onConnected, setConnected_state]
        exact ⟨fun busy => ⟨rfl, (valid busy).2⟩, Or.inr ⟨⟨rfl, rfl, rfl⟩, silent rfl⟩, trivial⟩
    | wait =>
      cases handled
      cases result with
      | error message => exact ⟨valid, Or.inr ⟨⟨rfl, rfl, rfl⟩, silent rfl⟩, rfl⟩
      | ok data => exact clearing _ (doConnect_cleared c) rfl
    | read sock =>
      cases result with
      | error message =>
        cases handled
        exact retry _
      | ok data =>
        simp only [handler, onRead, Option.bind_eq_bind, Option.bind_eq_some_iff, Option.pure_def,
          Option.some.injEq] at handled
        obtain ⟨⟨decoded, rxbuf⟩, _, rfl⟩ := handled
        exact ⟨valid, Or.inr ⟨⟨rfl, rfl, rfl⟩, silent rfl⟩, rfl⟩
    | write sock clears bytes =>
      cases result with
      | error message =>
        cases handled
        exact retry _
      | ok data =>
        rcases otherwise with noWrite | failed
        · cases noWrite
        · cases failed

theorem started_inv (host : Text) (port : UInt16) : writer.Inv (started host port) :=
  ⟨nofun, ⟨rfl, nofun, nofun, List.nodup_nil, nofun⟩, nofun, nofun, nofun⟩

-- If the action is the handler of a write that succeeded, its `pop_front` takes the buffer that was
-- written.
def PopsItsBuffer (l : Loop IpcClient ClientOp SharedBytes Completion)
    (a : Action Completion Frame) : Prop :=
  ∀ i sock clears bytes data, a = .handler i →
    l.pending[i]? = some { op := .write sock clears bytes, result := some (.ok data) } →
    l.state.txQueue.head? = some bytes

-- If the action is the handler of a write that succeeded, neither `schedule_reconnect` nor `do_connect`
-- has cleared the queue since the write was started.
def WrittenSinceCleared (l : Loop IpcClient ClientOp SharedBytes Completion)
    (a : Action Completion Frame) : Prop :=
  ∀ i sock clears bytes data, a = .handler i →
    l.pending[i]? = some { op := .write sock clears bytes, result := some (.ok data) } →
    clears = l.state.clears

theorem handles_iff (l : Loop IpcClient ClientOp SharedBytes Completion)
    (a : Action Completion Frame) (write : Nat × SharedBytes) :
    writer.Handles l a write ↔ ∃ i sock data, a = .handler i ∧
      l.pending[i]? = some { op := .write sock write.1 write.2, result := some (.ok data) } := by
  constructor
  · rintro ⟨i, op, result, rfl, here, given, succeeded⟩
    cases op with
    | write sock clears bytes =>
      cases given
      cases result with
      | error message => cases succeeded
      | ok data => exact ⟨i, sock, data, rfl, here⟩
    | _ => cases given
  · rintro ⟨i, sock, data, rfl, here⟩
    exact ⟨i, _, _, rfl, here, rfl, rfl⟩

theorem findsItsBuffer_eq : writer.FindsItsBuffer = PopsItsBuffer := by
  funext l a
  refine propext ⟨fun finds i sock clears bytes data handled here => ?_, fun pops write handles => ?_⟩
  · exact finds (clears, bytes) ((handles_iff l a _).mpr ⟨i, sock, data, handled, here⟩)
  · obtain ⟨i, sock, data, handled, here⟩ := (handles_iff l a write).mp handles
    exact pops i sock write.1 write.2 data handled here

theorem sameEpoch_eq : writer.SameEpoch = WrittenSinceCleared := by
  funext l a
  refine propext ⟨fun same i sock clears bytes data handled here => ?_, fun since write handles => ?_⟩
  · exact same (clears, bytes) ((handles_iff l a _).mpr ⟨i, sock, data, handled, here⟩)
  · obtain ⟨i, sock, data, handled, here⟩ := (handles_iff l a write).mp handles
    exact since i sock write.1 write.2 data handled here

theorem along_popsItsBuffer_iff (host : Text) (port : UInt16)
    (actions : List (Action Completion Frame)) :
    Machine.Along (step party) PopsItsBuffer (started host port) actions ↔
      Machine.Along (step party) WrittenSinceCleared (started host port) actions := by
  rw [← findsItsBuffer_eq, ← sameEpoch_eq]
  exact Writer.along_findsItsBuffer_iff writer_lawful (started_inv host port) actions

end IpcClient

end ExnGs.Ui
