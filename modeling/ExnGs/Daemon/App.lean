import ExnGs.Daemon.IpcSession
import ExnGs.Daemon.SerialLink
import ExnGs.Daemon.State
import ExnGs.Shared.Ccsds
import ExnGs.Shared.Framer

set_option autoImplicit false

namespace ExnGs.Daemon

open Proto SpacePacket Framer

/-- What the daemon meets: the library, the readings of the clock, in order, and what becomes of the
serial port in each generation that opens it. -/
structure Env where
  lib : CcsdsPack
  now : Nat → UInt64
  device : Nat → SerialOpen

inductive Op
  | accept
  | session (id : Nat) (op : SessionOp)
  | link (op : LinkOp)
  deriving DecidableEq, Repr

inductive Task
  | accepted (result : Completion)
  | session (id : Nat) (op : SessionOp) (result : Completion)
  | send (session : Nat) (bytes : SharedBytes)
  | link (op : LinkOp) (result : Completion)
  | transmit (bytes : TxPacket)
  deriving DecidableEq, Repr

-- What is left to do of `run` before it enters the loop, or of a handler that has begun.
inductive Rest
  | boot
  | greet (session : Nat)
  | decode (session : Nat)
  deriving DecidableEq, Repr

-- The history of a run, which no code reads.
inductive Event
  | link (event : LinkEvent)
  | framed (generation : Nat) (packet : List UInt8)
  | stored (record : PacketRecord)
  | sent (session : Nat) (f : Frame)
  | broadcast (f : Frame)
  deriving DecidableEq, Repr

/-- Sessions are numbered as they are accepted. One that has expired is kept: its socket is closed,
so that the closures posted for it do nothing. -/
structure App where
  link : SerialLink
  framer : CcsdsFramer := {}
  state : StateStore := { cap := 2000 }
  sessions : List IpcSession := []
  rest : Option Rest := some .boot
  ready : List Task := []
  outstanding : List Op := [.accept]
  allocated : Nat := 0
  clock : Nat := 0
  history : List Event := []

def uppercase (value : Text) : Text :=
  value.map fun c => if 97 ≤ c ∧ c ≤ 122 then c - 32 else c

def linkStateToString : LinkState → Text
  | .Disconnected => text "DISCONNECTED"
  | .Connected => text "CONNECTED"
  | .Error => text "ERROR"

def makePacketFrame (type : MsgType) (m : PacketMeta) (desc : Text) : Frame :=
  { type, payload := packPacketMeta m desc }

def makeErrorFrame (message : Text) : Frame := { type := .Error, payload := packString message }

def makeQueryResult (message : Text) : Frame :=
  { type := .QueryResult, payload := packString message }

def number (n : UInt64) : Text := text (toString n.toNat)

def formatStats (snap : StateSnapshot) : Text :=
  text "RX packets=" ++ number snap.rxPackets ++ text " bytes=" ++ number snap.rxBytes ++
    text " | TX packets=" ++ number snap.txPackets ++ text " bytes=" ++ number snap.txBytes ++
    text " | decode_errors=" ++ number snap.decodeErrors ++
    text " framing_errors=" ++ number snap.framingErrors

namespace App

def log (d : App) (event : Event) : App := { d with history := d.history ++ [event] }

def initiate (d : App) (op : Op) : App := { d with outstanding := d.outstanding ++ [op] }

def setSession (d : App) (id : Nat) (session : IpcSession) : App :=
  { d with sessions := d.sessions.set id session }

def send (d : App) (session : Nat) (f : Frame) : App :=
  { d with
    ready := d.ready ++ [.send session (IpcSession.send d.allocated f)]
    allocated := d.allocated + 1
    history := d.history ++ [.sent session f] }

def broadcast (d : App) (f : Frame) : App :=
  (List.range d.sessions.length).foldl (fun d session => d.send session f) (d.log (.broadcast f))

def currentLinkFrame (d : App) : Frame :=
  let snap := d.state.snap
  let payload := linkStateToString snap.link ++
    if snap.linkDetail = [] then [] else text " " ++ snap.linkDetail
  { type := .LinkState, payload := packString payload }

def publishLinkState (d : App) : App := d.broadcast d.currentLinkFrame

def modifyState (d : App) (f : StateStore → StateStore) : App := { d with state := f d.state }

def rxRecord (decoded : Except Text PacketMeta) (now : UInt64) (bytes : List UInt8) : PacketRecord :=
  match decoded with
  | .ok m =>
    { tsNs := m.tsNs, dir := if m.typ = 1 then .TC else .TM, apid := m.apid, seq := m.seq
      service := m.svc, subservice := m.ssvc, summary := text "RX", raw := bytes }
  | .error decodeError =>
    { tsNs := now, dir := .TM, apid := 0, seq := 0, service := 0, subservice := 0
      summary := text "RX INVALID: " ++ decodeError, raw := bytes }

-- `state.on_packet` and `logger->store`, after two readings of the clock.
def keep (d : App) (generation : Nat) (record : PacketRecord) : App :=
  { d with
    clock := d.clock + 2
    state := d.state.onPacket record
    history := d.history ++ [.framed generation record.raw, .stored record] }

-- The callback given to `set_on_packet`; `none` is a slice outside of the packet.
def onPacket (env : Env) (d : App) (generation : Nat) (bytes : List UInt8) : Option App := do
  let decoded ← decodeMeta env.lib (env.now d.clock) bytes
  let record := rxRecord decoded (env.now (d.clock + 1)) bytes
  let d := d.keep generation record
  match decoded with
  | .error _ => return (d.modifyState .onDecodeError).broadcast (makeErrorFrame record.summary)
  | .ok m => return d.broadcast (makePacketFrame .PacketRx m (text "RX"))

def onLinkEvent (env : Env) (d : App) (event : LinkEvent) : Option App :=
  let d := d.log (.link event)
  match event with
  | .start op => some (d.initiate (.link op))
  | .post packet => some { d with ready := d.ready ++ [.transmit packet] }
  | .onState opened detail =>
    let st := if opened then LinkState.Connected else LinkState.Disconnected
    some (d.modifyState fun state => state.setLink st detail).publishLinkState
  | .onError err =>
    some (d.modifyState fun state => state.setLink .Error err).publishLinkState
  | .onBytes generation data =>
    let pushed := pushBytes env.lib.declaredPacketSize d.framer data
    pushed.2.foldlM (fun d packet => d.onPacket env generation packet) { d with framer := pushed.1 }
  | .queued _ _ | .discarded _ => some d

def onLink (env : Env) (d : App) (turn : SerialLink × List LinkEvent) : Option App :=
  turn.2.foldlM (onLinkEvent env) { d with link := turn.1 }

-- The callback given to `set_on_frame`; `none` is an access outside of the payload.
def onFrame (env : Env) (d : App) (frame : Frame) (session : Nat) : Option App :=
  if frame.type = .PacketSend then do
    let decoded ← decodeMeta env.lib (env.now d.clock) frame.payload
    let d := { d with clock := d.clock + 1 }
    match decoded with
    | .error error => return d.send session (makeErrorFrame (text "Rejected outbound packet: " ++ error))
    | .ok m =>
      if d.link.opened = false then
        return d.send session
          (makeErrorFrame (text "Rejected outbound packet: device link is disconnected"))
      let d ← d.onLink env (d.link, d.link.writeBytes frame.payload)
      let d := d.modifyState fun state => state.onTx frame.payload.length
      return d.broadcast (makePacketFrame .PacketTx m (text "TX"))
  else do
    let (ok, command) ← unpackString frame.payload []
    if ok = false then return d.send session (makeErrorFrame (text "Invalid IPC command payload"))
    let command := uppercase command
    if command = text "CONNECT" then
      if d.link.opened then return d.send session d.currentLinkFrame
      else d.onLink env (d.link.start env.device)
    else if command = text "DISCONNECT" then d.onLink env d.link.stop
    else if command = text "RECONNECT" then
      let d ← d.onLink env d.link.stop
      d.onLink env (d.link.start env.device)
    else if command = text "PING" then return d.send session (makeQueryResult (text "PONG"))
    else if command = text "STATUS" then return d.send session d.currentLinkFrame
    else if command = text "STATS" then
      return d.send session (makeQueryResult (formatStats d.state.snap))
    else return d.send session (makeErrorFrame (text "Unsupported daemon command: " ++ command))

def onSession (d : App) (id : Nat)
    (effects : EventLoop.Effects IpcSession SessionOp SharedBytes) : App :=
  (effects.started.map (.session id)).foldl initiate (d.setSession id effects.state)

-- One turn of the loop `while (try_decode(rxbuf_, f))` of a session, after which it goes on, or the end
-- of the loop.
def decode (env : Env) (d : App) (id : Nat) (session : IpcSession) : Option App := do
  let (found, rxbuf, f) ← tryDecode session.rxbuf .unset
  let d := d.setSession id { session with rxbuf }
  if found = false then return d.initiate (.session id .read)
  let d := { d with rest := some (.decode id) }
  if IpcSession.isRequest f then d.onFrame env f id else return d

-- Goes on with what was left to do; `none` is undefined behaviour.
def resume (env : Env) (d : App) : Rest → Option App
  | .boot => if d.link.port = [] then some d else d.onLink env (d.link.start env.device)
  | .greet id =>
    let d := d.send id { type := .Hello, payload := packString (text "exn_gsd") }
    let d := d.send id d.currentLinkFrame
    some (d.initiate .accept)
  | .decode id =>
    match d.sessions[id]? with
    | none => some d
    | some session => d.decode env id session

def runTask (env : Env) (d : App) : Task → Option App
  | .accepted result =>
    match result with
    | .error _ => some (d.initiate .accept)
    | .ok _ =>
      let id := d.sessions.length
      let d := d.initiate (.session id .read)
      some { d with sessions := d.sessions ++ [{}], rest := some (.greet id) }
  | .session id op result =>
    match d.sessions[id]? with
    | none => some d
    | some session =>
      match op, result with
      | .read, .error _ => some (d.onSession id { state := session.close })
      | .read, .ok data =>
        let d := d.setSession id { session with rxbuf := session.rxbuf ++ data }
        some { d with rest := some (.decode id) }
      | .write _, result => (session.onWritten result).map (d.onSession id)
  | .send id bytes =>
    match d.sessions[id]? with
    | none => some d
    | some session => some (d.onSession id (session.runSend bytes))
  | .link op result => d.onLink env (d.link.handler op result)
  | .transmit bytes => d.onLink env (d.link.runWrite bytes)

/-- Operations end, and tasks run one at a time in the order in which they became ready. -/
inductive Action
  | finish (i : Nat) (result : Completion)
  | run
  deriving DecidableEq, Repr

def mayEnd (d : App) (op : Op) (result : Completion) : Bool :=
  match op with
  | .accept => true
  | .session id _ => !result.isOk || (d.sessions[id]?.map IpcSession.sockOpen).getD false
  | .link op => d.link.mayEnd op result

def handlerOf (op : Op) (result : Completion) : Task :=
  match op with
  | .accept => .accepted result
  | .session id op => .session id op result
  | .link op => .link op result

def step (env : Env) (d : App) : Action → Outcome App
  | .finish i result =>
    match d.outstanding[i]? with
    | none => .disabled
    | some op =>
      if d.mayEnd op result then
        .next { d with
          outstanding := d.outstanding.eraseIdx i
          ready := d.ready ++ [handlerOf op result] }
      else .disabled
  | .run =>
    match d.rest, d.ready with
    | some rest, _ => Machine.outcome ({ d with rest := none }.resume env rest)
    | none, task :: ready => Machine.outcome ({ d with ready }.runTask env task)
    | none, [] => .disabled

end App

end ExnGs.Daemon
