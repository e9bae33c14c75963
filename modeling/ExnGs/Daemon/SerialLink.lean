import ExnGs.Shared.Types

set_option autoImplicit false

namespace ExnGs.Daemon

/-- A packet given to `write_bytes`. `accepted` is history, which no code reads: the value of
`generation_` at that time. -/
structure TxPacket where
  bytes : List UInt8
  accepted : Nat
  deriving DecidableEq, Repr

structure Transport where
  isTcp : Bool := false
  tcpHost : Text := []
  tcpPort : UInt16 := 0
  port : Text := []
  deriving DecidableEq, Repr

/-- `generation_` counts attempts to connect and disconnects, far fewer than `2^64`. -/
structure SerialLink extends Transport where
  opened : Bool := false
  connecting : Bool := false
  generation : Nat := 0
  detail : Text := []
  txQueue : List TxPacket := []
  deriving DecidableEq, Repr

-- An asynchronous operation, with the generation its handler captured.
inductive LinkOp
  | resolve (generation : Nat)
  | connect (generation : Nat)
  | read (generation : Nat)
  | write (generation : Nat) (packet : TxPacket)
  deriving DecidableEq, Repr

/-- What the link does besides changing its fields: it starts operations, posts closures and calls
back. What becomes of a packet is recorded as well. -/
inductive LinkEvent
  | start (op : LinkOp)
  | post (packet : TxPacket)
  | onState (opened : Bool) (detail : Text)
  | onError (err : Text)
  | onBytes (generation : Nat) (data : List UInt8)
  | queued (generation : Nat) (packet : TxPacket)
  | discarded (packet : TxPacket)
  deriving DecidableEq, Repr

def LinkOp.generation : LinkOp → Nat
  | .resolve generation | .connect generation | .read generation | .write generation _ => generation

def LinkEvent.started : LinkEvent → List LinkOp
  | .start op => [op]
  | _ => []

-- What opening the serial port and setting its baud rate come to.
inductive SerialOpen
  | opened
  | openFailed (message : Text)
  | baudFailed (message : Text)
  deriving DecidableEq, Repr

namespace SerialLink

def doRead (link : SerialLink) (generation : Nat) : List LinkEvent :=
  if generation ≠ link.generation ∨ link.opened = false then [] else [.start (.read generation)]

def start (device : Nat → SerialOpen) (link : SerialLink) : SerialLink × List LinkEvent :=
  if link.opened || link.connecting then (link, [])
  else
    let generation := link.generation + 1
    let link := { link with generation, connecting := true }
    if link.isTcp then
      let detail := text "tcp://" ++ link.tcpHost ++ text ":" ++ text (toString link.tcpPort.toNat)
      ({ link with detail }, [.start (.resolve generation)])
    else if link.port = [] then
      ({ link with connecting := false },
        [.onError (text "no port configured (use --port /dev/ttyACM0 or --port tcp://HOST:PORT)")])
    else
      match device generation with
      | .openFailed message =>
        ({ link with connecting := false }, [.onError (text "serial open failed: " ++ message)])
      | .baudFailed message =>
        ({ link with connecting := false }, [.onError (text "serial baud set failed: " ++ message)])
      | .opened =>
        let link := { link with connecting := false, opened := true, detail := link.port }
        (link, .onState true link.detail :: link.doRead generation)

def stop (link : SerialLink) : SerialLink × List LinkEvent :=
  ({ link with generation := link.generation + 1, opened := false, connecting := false, txQueue := [] },
    [.onState false link.detail])

def handleIoError (link : SerialLink) (context : String) (message : Text) (generation : Nat) :
    SerialLink × List LinkEvent :=
  if generation ≠ link.generation then (link, [])
  else ({ link with opened := false, connecting := false, txQueue := [] },
    [.onError (text context ++ text ": " ++ message)])

def onResolved (link : SerialLink) (generation : Nat) (result : Completion) :
    SerialLink × List LinkEvent :=
  if generation ≠ link.generation then (link, [])
  else match result with
    | .error message => link.handleIoError "tcp resolve failed" message generation
    | .ok _ => (link, [.start (.connect generation)])

def onConnected (link : SerialLink) (generation : Nat) (result : Completion) :
    SerialLink × List LinkEvent :=
  if generation ≠ link.generation then (link, [])
  else match result with
    | .error message => link.handleIoError "tcp connect failed" message generation
    | .ok _ =>
      let link := { link with connecting := false, opened := true }
      (link, .onState true link.detail :: link.doRead generation)

def writeBytes (link : SerialLink) (data : List UInt8) : List LinkEvent :=
  if data = [] then [] else [.post { bytes := data, accepted := link.generation }]

def doWrite (link : SerialLink) (generation : Nat) : List LinkEvent :=
  if generation ≠ link.generation ∨ link.opened = false then []
  else match link.txQueue with
    | [] => []
    | bytes :: _ => [.start (.write generation bytes)]

-- The closure posted by `write_bytes`.
def runWrite (link : SerialLink) (bytes : TxPacket) : SerialLink × List LinkEvent :=
  if link.opened = false then (link, [.discarded bytes])
  else
    let idle := link.txQueue.isEmpty
    let link := { link with txQueue := link.txQueue ++ [bytes] }
    (link, .queued link.generation bytes :: if idle then link.doWrite link.generation else [])

def onWritten (link : SerialLink) (generation : Nat) (result : Completion) :
    SerialLink × List LinkEvent :=
  if generation ≠ link.generation then (link, [])
  else match result with
    | .error message => link.handleIoError "device write failed" message generation
    | .ok _ =>
      let link := { link with txQueue := link.txQueue.tail }
      (link, link.doWrite generation)

-- The handlers of `do_read_serial` and `do_read_tcp`.
def onRead (link : SerialLink) (generation : Nat) (result : Completion) :
    SerialLink × List LinkEvent :=
  if generation ≠ link.generation then (link, [])
  else match result with
    | .error message =>
      link.handleIoError (if link.isTcp then "tcp read failed" else "serial read failed") message
        generation
    | .ok data =>
      (link, (if data = [] then [] else [.onBytes generation data]) ++ link.doRead generation)

def handler (link : SerialLink) : LinkOp → Completion → SerialLink × List LinkEvent
  | .resolve generation => link.onResolved generation
  | .connect generation => link.onConnected generation
  | .read generation => link.onRead generation
  | .write generation _ => link.onWritten generation

-- An operation that `cancel` and `close` reached before it ended does not succeed.
def mayEnd (link : SerialLink) (op : LinkOp) (result : Completion) : Bool :=
  match result, op with
  | .error _, _ => true
  | .ok _, .resolve generation | .ok _, .connect generation =>
    generation = link.generation ∧ link.connecting
  | .ok _, .read generation | .ok _, .write generation _ =>
    generation = link.generation ∧ link.opened

inductive Started (link : SerialLink) : SerialLink × List LinkEvent → Prop
  | busy (busy : link.opened = true ∨ link.connecting = true) : Started link (link, [])
  | resolving (closed : link.opened = false) (tcp : link.isTcp = true) (detail : Text) :
      Started link
        ({ link with generation := link.generation + 1, connecting := true, detail },
          [.start (.resolve (link.generation + 1))])
  | failed (closed : link.opened = false) (serial : link.isTcp = false) (err : Text) :
      Started link
        ({ link with generation := link.generation + 1, connecting := false }, [.onError err])
  | opened (closed : link.opened = false) (serial : link.isTcp = false) :
      Started link
        ({ link with
            generation := link.generation + 1
            connecting := false
            opened := true
            detail := link.port },
          [.onState true link.port, .start (.read (link.generation + 1))])

theorem start_cases (device : Nat → SerialOpen) (link : SerialLink) :
    link.Started (link.start device) := by
  unfold start
  split
  next busy => exact .busy (by simpa using busy)
  next idle =>
    have closed : link.opened = false := by
      simp only [Bool.or_eq_true, not_or, Bool.not_eq_true] at idle
      exact idle.1
    simp only
    split
    next tcp => exact .resolving closed tcp _
    next serial =>
      have serial : link.isTcp = false := by simpa using serial
      split
      next => exact .failed closed serial _
      next =>
        split
        next => exact .failed closed serial _
        next => exact .failed closed serial _
        next =>
          simp only [doRead, ne_eq, not_true_eq_false, Bool.true_eq_false, or_self, if_false]
          exact .opened closed serial

-- What a handler does whose generation is still the present one.
inductive Completed (link : SerialLink) : LinkOp → Completion → SerialLink × List LinkEvent → Prop
  | failed {op : LinkOp} {message : Text} (err : Text) :
      Completed link op (.error message)
        ({ link with opened := false, connecting := false, txQueue := [] }, [.onError err])
  | resolved {data : List UInt8} :
      Completed link (.resolve link.generation) (.ok data)
        (link, [.start (.connect link.generation)])
  | connected {data : List UInt8} :
      Completed link (.connect link.generation) (.ok data)
        ({ link with connecting := false, opened := true },
          [.onState true link.detail, .start (.read link.generation)])
  | read {data : List UInt8} :
      Completed link (.read link.generation) (.ok data)
        (link, (if data = [] then [] else [.onBytes link.generation data]) ++
          link.doRead link.generation)
  | written {packet : TxPacket} {data : List UInt8} :
      Completed link (.write link.generation packet) (.ok data)
        ({ link with txQueue := link.txQueue.tail },
          { link with txQueue := link.txQueue.tail }.doWrite link.generation)

-- What a handler can do. Those of other generations do nothing.
inductive Handled (link : SerialLink) : LinkOp → Completion → SerialLink × List LinkEvent → Prop
  | stale {op : LinkOp} {result : Completion} : Handled link op result (link, [])
  | failed {op : LinkOp} {message : Text} (err : Text) :
      Handled link op (.error message)
        ({ link with opened := false, connecting := false, txQueue := [] }, [.onError err])
  | resolved {data : List UInt8} :
      Handled link (.resolve link.generation) (.ok data)
        (link, [.start (.connect link.generation)])
  | connected {data : List UInt8} :
      Handled link (.connect link.generation) (.ok data)
        ({ link with connecting := false, opened := true },
          [.onState true link.detail, .start (.read link.generation)])
  | read {data : List UInt8} {next : List LinkEvent}
      (reads : next = [] ∨ next = [.start (.read link.generation)]) :
      Handled link (.read link.generation) (.ok data)
        (link, (if data = [] then [] else [.onBytes link.generation data]) ++ next)
  | written {packet : TxPacket} {data : List UInt8} {next : List LinkEvent}
      (writes : next = [] ∨
        ∃ later ∈ link.txQueue.tail, next = [.start (.write link.generation later)]) :
      Handled link (.write link.generation packet) (.ok data)
        ({ link with txQueue := link.txQueue.tail }, next)

theorem doRead_cases (link : SerialLink) (generation : Nat) :
    link.doRead generation = [] ∨ link.doRead generation = [.start (.read generation)] := by
  unfold doRead
  split
  next => exact .inl rfl
  next => exact .inr rfl

theorem doWrite_cases (link : SerialLink) (generation : Nat) :
    link.doWrite generation = [] ∨
      ∃ packet ∈ link.txQueue, link.doWrite generation = [.start (.write generation packet)] := by
  unfold doWrite
  split
  next => exact .inl rfl
  next =>
    split
    next => exact .inl rfl
    next packet rest queue => exact .inr ⟨packet, by simp [queue], rfl⟩

theorem handler_stale {link : SerialLink} {op : LinkOp} (stale : op.generation ≠ link.generation)
    (result : Completion) : link.handler op result = (link, []) := by
  cases op <;> simp only [handler, onResolved, onConnected, onRead, onWritten] <;> exact if_pos stale

theorem handleIoError_current (link : SerialLink) (op : LinkOp) (context : String) (message : Text) :
    link.Completed op (.error message) (link.handleIoError context message link.generation) := by
  rw [handleIoError, if_neg (by simp)]
  exact .failed _

theorem handler_current {link : SerialLink} {op : LinkOp} (current : op.generation = link.generation)
    (result : Completion) : link.Completed op result (link.handler op result) := by
  cases op with
  | resolve generation =>
    obtain rfl : generation = link.generation := current
    simp only [handler, onResolved, ne_eq, not_true_eq_false, if_false]
    cases result with
    | error message => exact handleIoError_current _ _ _ _
    | ok data => exact .resolved
  | connect generation =>
    obtain rfl : generation = link.generation := current
    simp only [handler, onConnected, ne_eq, not_true_eq_false, if_false]
    cases result with
    | error message => exact handleIoError_current _ _ _ _
    | ok data =>
      simp only [doRead, ne_eq, not_true_eq_false, Bool.true_eq_false, or_self, if_false]
      exact .connected
  | read generation =>
    obtain rfl : generation = link.generation := current
    simp only [handler, onRead, ne_eq, not_true_eq_false, if_false]
    cases result with
    | error message => exact handleIoError_current _ _ _ _
    | ok data => exact .read
  | write generation packet =>
    obtain rfl : generation = link.generation := current
    simp only [handler, onWritten, ne_eq, not_true_eq_false, if_false]
    cases result with
    | error message => exact handleIoError_current _ _ _ _
    | ok data => exact .written

theorem handler_cases (link : SerialLink) (op : LinkOp) (result : Completion) :
    link.Handled op result (link.handler op result) := by
  by_cases current : op.generation = link.generation
  · have completed := handler_current current result
    generalize link.handler op result = turn at completed
    cases completed with
    | failed err => exact .failed err
    | resolved => exact .resolved
    | connected => exact .connected
    | read => exact .read (doRead_cases _ _)
    | written => exact .written (doWrite_cases _ _)
  · rw [handler_stale current]
    exact .stale

inductive Written (link : SerialLink) (packet : TxPacket) : SerialLink × List LinkEvent → Prop
  | dropped (closed : link.opened = false) : Written link packet (link, [.discarded packet])
  | behind (opened : link.opened = true) (busy : link.txQueue ≠ []) :
      Written link packet
        ({ link with txQueue := link.txQueue ++ [packet] }, [.queued link.generation packet])
  | first (opened : link.opened = true) (idle : link.txQueue = []) :
      Written link packet
        ({ link with txQueue := [packet] },
          [.queued link.generation packet, .start (.write link.generation packet)])

theorem runWrite_cases (link : SerialLink) (packet : TxPacket) :
    link.Written packet (link.runWrite packet) := by
  cases opened : link.opened with
  | false =>
    have ran : link.runWrite packet = (link, [.discarded packet]) := by simp [runWrite, opened]
    rw [ran]
    exact .dropped opened
  | true =>
    by_cases idle : link.txQueue = []
    · have ran : link.runWrite packet = ({ link with txQueue := [packet] },
          [.queued link.generation packet, .start (.write link.generation packet)]) := by
        simp [runWrite, doWrite, opened, idle]
      rw [ran]
      exact .first opened idle
    · have ran : link.runWrite packet = ({ link with txQueue := link.txQueue ++ [packet] },
          [.queued link.generation packet]) := by
        simp [runWrite, opened, idle]
      rw [ran]
      exact .behind opened idle

end SerialLink

end ExnGs.Daemon
