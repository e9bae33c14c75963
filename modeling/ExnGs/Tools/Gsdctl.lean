import ExnGs.Shared.IpcStream
import ExnGs.Shared.StringPayload

set_option autoImplicit false

namespace ExnGs.Tools

open Proto

-- How a call of `read_frame` ends: it returns, or it waits for a read that does not complete.
inductive ReadOutcome
  | returned (found : Bool)
  | waiting
  deriving DecidableEq, Repr

structure ReadFrame where
  outcome : ReadOutcome
  buffer : List UInt8
  frame : Frame
  -- The reads of the socket that are still to come.
  reads : List (List UInt8)
  deriving DecidableEq, Repr

def readFrame (reads : List (List UInt8)) (buffer : List UInt8) (frame : Frame) :
    Option ReadFrame := do
  let (found, buffer, frame) ← tryDecode buffer frame
  if found then return { outcome := .returned true, buffer, frame, reads }
  match reads with
  | [] => return { outcome := .waiting, buffer, frame, reads := [] }
  | data :: rest =>
    if data.length = 0 then return { outcome := .returned false, buffer, frame, reads := rest }
    readFrame rest (buffer ++ data) frame

-- Repeated calls of `read_frame`, at most so many: the frames they find, the buffer, and whether the
-- last call waits.
def readFrames : Nat → List (List UInt8) → List UInt8 → Frame →
    Option (List Frame × List UInt8 × Bool)
  | 0, _, buffer, _ => some ([], buffer, false)
  | calls + 1, reads, buffer, frame => do
    let result ← readFrame reads buffer frame
    match result.outcome with
    | .waiting => return ([], result.buffer, true)
    | .returned false => readFrames calls result.reads result.buffer result.frame
    | .returned true =>
      let later ← readFrames calls result.reads result.buffer result.frame
      return (result.frame :: later.1, later.2)

def hexDigit (c : UInt8) : Option UInt8 :=
  if 48 ≤ c ∧ c ≤ 57 then some (c - 48)
  else if 65 ≤ c ∧ c ≤ 70 then some (c - 55)
  else if 97 ≤ c ∧ c ≤ 102 then some (c - 87)
  else none

def hexBytes : Text → Option (List UInt8)
  | [] => some []
  | [_] => none
  | high :: low :: rest => do
    let high ← hexDigit high
    let low ← hexDigit low
    return (high * 16 + low) :: (← hexBytes rest)

def decodeHex (hex : Text) : Option (List UInt8) := if hex = [] then none else hexBytes hex

inductive LinkExpectation
  | Any
  | Connected
  | Disconnected
  deriving DecidableEq, Repr

structure Request where
  request : Frame
  expected : MsgType := .QueryResult
  linkExpectation : LinkExpectation := .Any
  deriving DecidableEq, Repr

-- `none` is a command that is not known, or whose argument is none: `main` returns 1.
def requestOf (command : Text) (args : List Text) : Option Request :=
  let ask := fun name => ({ type := .Command, payload := packString (text name) } : Frame)
  if command = text "ping" then some { request := ask "PING" }
  else if command = text "status" then some { request := ask "STATUS", expected := .LinkState }
  else if command = text "stats" then some { request := ask "STATS" }
  else if command = text "connect" then
    some { request := ask "CONNECT", expected := .LinkState, linkExpectation := .Connected }
  else if command = text "disconnect" then
    some { request := ask "DISCONNECT", expected := .LinkState, linkExpectation := .Disconnected }
  else if command = text "reconnect" then
    some { request := ask "RECONNECT", expected := .LinkState, linkExpectation := .Connected }
  else if command = text "raw" then
    match args with
    | [] => none
    | hex :: _ =>
      (decodeHex hex).map fun payload =>
        { request := { type := .PacketSend, payload }, expected := .PacketTx }
  else none

-- Where `main` stands between two frames that it reads.
inductive Stage
  | greeting
  | handshake
  | waiting (request : Request)
  | exited (status : Nat)
  deriving DecidableEq, Repr

-- What is printed is left out; `none` is an access outside of the payload.
def printFrame (f : Frame) : Option Unit :=
  if f.type = .Hello ∨ f.type = .LinkState ∨ f.type = .QueryResult ∨ f.type = .Error then
    (unpackString f.payload []).map fun _ => ()
  else some ()

def onLinkState (r : Request) (state : Text) : Stage :=
  if (text "ERROR").isPrefixOf state then .exited 1
  else if r.linkExpectation = .Connected ∧ ¬ (text "CONNECTED").isPrefixOf state then .waiting r
  else if r.linkExpectation = .Disconnected ∧ ¬ (text "DISCONNECTED").isPrefixOf state then .waiting r
  else .exited 0

-- One turn of the loop `for (;;)`, after `read_frame`.
def onReply (r : Request) (f : Frame) : Option Stage := do
  printFrame f
  if f.type = .Error then return .exited 1
  else if f.type ≠ r.expected then return .waiting r
  else if f.type = .LinkState then
    let (ok, state) ← unpackString f.payload []
    return if ok then onLinkState r state else .waiting r
  else return .exited 0

def onFrame (command : Text) (args : List Text) : Stage → Frame → Option Stage
  | .greeting, f => do
    printFrame f
    return .handshake
  | .handshake, f => do
    printFrame f
    if f.type ≠ .LinkState then return .handshake
    else return (requestOf command args).elim (.exited 1) .waiting
  | .waiting r, f => onReply r f
  | .exited status, _ => some (.exited status)

-- Where `main` comes to with the frames it reads.
def follow (command : Text) (args : List Text) (frames : List Frame) : Option Stage :=
  frames.foldlM (onFrame command args) .greeting

-- A frame that ends the wait for the answer to a request with status 0.
def Ends (r : Request) (f : Frame) : Prop := onReply r f = some (.exited 0)

inductive Advances (reads : List (List UInt8)) (buffer : List UInt8) (result : ReadFrame) : Prop
  | found (outcome : result.outcome = .returned true)
      (decoded : decodeAll (buffer ++ reads.flatten) =
        (result.frame :: (decodeAll (result.buffer ++ result.reads.flatten)).1,
          (decodeAll (result.buffer ++ result.reads.flatten)).2))
      (reads : result.reads.length ≤ reads.length)
  | closed (outcome : result.outcome = .returned false)
      (stream : buffer ++ reads.flatten = result.buffer ++ result.reads.flatten)
      (reads : result.reads.length < reads.length)
  | waits (outcome : result.outcome = .waiting)
      (decoded : decodeAll (buffer ++ reads.flatten) = ([], result.buffer))

theorem readFrame_advances (reads : List (List UInt8)) (buffer : List UInt8) (frame : Frame)
    (safe : SafeReads buffer reads) :
    ∃ result, readFrame reads buffer frame = some result ∧
      SafeReads result.buffer result.reads ∧ Advances reads buffer result := by
  induction reads generalizing buffer with
  | nil =>
    by_cases holds : HoldsFrame buffer
    · refine ⟨_, by rw [readFrame, tryDecode_frame buffer frame holds]; rfl, safe.taken holds, ?_⟩
      exact .found rfl (decodeAll_frame holds _) (Nat.le_refl _)
    · have idle := decodeAll_wait holds
      have safe' := safe.now
      rw [idle] at safe'
      refine ⟨_, by rw [readFrame, tryDecode_wait buffer frame holds safe']; rfl, safe, ?_⟩
      exact .waits rfl (by rw [List.flatten_nil, List.append_nil, idle])
  | cons data rest ih =>
    by_cases holds : HoldsFrame buffer
    · refine ⟨_, by rw [readFrame, tryDecode_frame buffer frame holds]; rfl, safe.taken holds, ?_⟩
      exact .found rfl (decodeAll_frame holds _) (Nat.le_refl _)
    · have idle := decodeAll_wait holds
      have safe' := safe.now
      rw [idle] at safe'
      have decoded := tryDecode_wait buffer frame holds safe'
      by_cases empty : data.length = 0
      · have none := List.length_eq_zero_iff.mp empty
        refine ⟨{ outcome := .returned false, buffer, frame, reads := rest }, ?_, ?_, ?_⟩
        · rw [readFrame, decoded]
          simp [none]
        · simpa [none] using safe.next
        · exact .closed rfl (by simp [none]) (by simp)
      · obtain ⟨result, returned, safe, advances⟩ := ih (buffer ++ data) safe.next
        refine ⟨result, ?_, safe, ?_⟩
        · rw [readFrame, decoded]
          simpa [empty] using returned
        · have stream : buffer ++ (data :: rest).flatten = buffer ++ data ++ rest.flatten := by simp
          cases advances with
          | found outcome decoded fewer =>
            exact .found outcome (stream ▸ decoded) (Nat.le_succ_of_le fewer)
          | closed outcome same fewer => exact .closed outcome (stream ▸ same) (Nat.lt_succ_of_lt fewer)
          | waits outcome decoded => exact .waits outcome (stream ▸ decoded)

theorem readFrames_decodeAll (calls : Nat) (reads : List (List UInt8)) (buffer : List UInt8)
    (frame : Frame) (safe : SafeReads buffer reads)
    (enough : (decodeAll (buffer ++ reads.flatten)).1.length + reads.length < calls) :
    readFrames calls reads buffer frame =
      some ((decodeAll (buffer ++ reads.flatten)).1, (decodeAll (buffer ++ reads.flatten)).2,
        true) := by
  induction calls generalizing reads buffer frame with
  | zero => omega
  | succ calls ih =>
    obtain ⟨result, returned, safe, advances⟩ := readFrame_advances reads buffer frame safe
    cases advances with
    | found outcome decoded fewer =>
      have later := ih result.reads result.buffer result.frame safe
        (by simp only [decoded, List.length_cons] at enough; omega)
      simp [readFrames, returned, outcome, later, decoded]
    | closed outcome stream fewer =>
      have later := ih result.reads result.buffer result.frame safe (by rw [← stream]; omega)
      simp [readFrames, returned, outcome, later, stream]
    | waits outcome decoded => simp [readFrames, returned, outcome, decoded]

section Follow

variable {command : Text} {args : List Text} {r : Request}

theorem Ends.type {f : Frame} (ends : Ends r f) : f.type = r.expected := by
  simp only [Ends, onReply, Option.bind_eq_bind, Option.bind_eq_some_iff] at ends
  obtain ⟨_, _, ends⟩ := ends
  split at ends
  next => cases ends
  split at ends
  next => cases ends
  next same => exact Decidable.not_not.mp same

theorem onReply_error {f : Frame} (error : f.type = .Error) {stage : Stage}
    (replied : onReply r f = some stage) : stage = .exited 1 := by
  simp only [onReply, Option.bind_eq_bind, Option.bind_eq_some_iff] at replied
  obtain ⟨_, _, replied⟩ := replied
  rw [if_pos error] at replied
  cases replied
  rfl

theorem onLinkState_stage (r : Request) (state : Text) :
    onLinkState r state = .waiting r ∨ onLinkState r state = .exited 1 ∨
      onLinkState r state = .exited 0 := by
  unfold onLinkState
  split
  next => exact .inr (.inl rfl)
  split
  next => exact .inl rfl
  split
  next => exact .inl rfl
  next => exact .inr (.inr rfl)

theorem onReply_stage {f : Frame} {stage : Stage} (replied : onReply r f = some stage) :
    stage = .waiting r ∨ stage = .exited 1 ∨ stage = .exited 0 := by
  simp only [onReply, Option.bind_eq_bind, Option.bind_eq_some_iff] at replied
  obtain ⟨_, _, replied⟩ := replied
  split at replied
  next =>
    cases replied
    exact .inr (.inl rfl)
  split at replied
  next =>
    cases replied
    exact .inl rfl
  split at replied
  next =>
    simp only [Option.bind_eq_some_iff] at replied
    obtain ⟨⟨ok, state⟩, _, replied⟩ := replied
    cases replied
    simp only
    split
    next => exact onLinkState_stage r state
    next => exact .inl rfl
  next =>
    cases replied
    exact .inr (.inr rfl)

theorem foldlM_exited (frames : List Frame) (status : Nat) :
    frames.foldlM (onFrame command args) (.exited status) = some (.exited status) := by
  induction frames with
  | nil => rfl
  | cons f rest ih => rw [List.foldlM_cons]; exact ih

-- Once the request is sent, only one of the frames that come can end the wait.
theorem foldlM_waiting (frames : List Frame) {stage : Stage}
    (followed : frames.foldlM (onFrame command args) (.waiting r) = some stage) :
    stage = .waiting r ∨ stage = .exited 1 ∨ (stage = .exited 0 ∧ ∃ f ∈ frames, Ends r f) := by
  induction frames with
  | nil =>
    cases followed
    exact .inl rfl
  | cons f rest ih =>
    simp only [List.foldlM_cons, Option.bind_eq_bind, Option.bind_eq_some_iff] at followed
    obtain ⟨next, replied, followed⟩ := followed
    rcases onReply_stage replied with rfl | rfl | rfl
    · rcases ih followed with waits | failed | ⟨ended, g, member, ends⟩
      · exact .inl waits
      · exact .inr (.inl failed)
      · exact .inr (.inr ⟨ended, g, List.mem_cons_of_mem _ member, ends⟩)
    · rw [foldlM_exited] at followed
      cases followed
      exact .inr (.inl rfl)
    · rw [foldlM_exited] at followed
      cases followed
      exact .inr (.inr ⟨rfl, f, List.mem_cons_self, replied⟩)

-- After its greeting `main` has sent the request and waits.
theorem follow_greeted (known : requestOf command args = some r) {hello status : Frame}
    (isStatus : status.type = .LinkState) (later : List Frame) {stage : Stage}
    (followed : follow command args (hello :: status :: later) = some stage) :
    later.foldlM (onFrame command args) (.waiting r) = some stage := by
  simp only [follow, List.foldlM_cons, Option.bind_eq_bind, Option.bind_eq_some_iff] at followed
  obtain ⟨first, greeted, second, shaken, followed⟩ := followed
  simp only [onFrame, Option.bind_eq_bind, Option.bind_eq_some_iff] at greeted
  obtain ⟨_, _, greeted⟩ := greeted
  cases greeted
  simp only [onFrame, Option.bind_eq_bind, Option.bind_eq_some_iff] at shaken
  obtain ⟨_, _, shaken⟩ := shaken
  rw [if_neg (by simp [isStatus]), known] at shaken
  cases shaken
  exact followed

theorem requestOf_raw (known : requestOf command args = some r) (raw : r.expected = .PacketTx) :
    r.request.type = .PacketSend := by
  have other : ∀ {r' : Request}, some r' = some r → r'.expected ≠ .PacketTx →
      r.request.type = .PacketSend := by
    intro r' same different
    exact absurd (Option.some.inj same ▸ raw) different
  unfold requestOf at known
  simp only at known
  split at known
  next => exact other known (by decide)
  split at known
  next => exact other known (by decide)
  split at known
  next => exact other known (by decide)
  split at known
  next => exact other known (by decide)
  split at known
  next => exact other known (by decide)
  split at known
  next => exact other known (by decide)
  split at known
  next =>
    split at known
    next => cases known
    next =>
      obtain ⟨payload, _, rfl⟩ := Option.map_eq_some_iff.mp known
      rfl
  next => cases known

end Follow

end ExnGs.Tools
