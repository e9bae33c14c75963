import Mathlib.Data.List.DropRight
import Mathlib.Data.List.Induction
import ExnGs.Daemon.App
import ExnGs.Sim.Reporting
import ExnGs.Ui.PacketRows

set_option autoImplicit false

-- The user interface between its keyboard and its client: `UiApp::run`.
namespace ExnGs.Ui

open Proto SpacePacket Machine Sim Daemon

def PUSID_GS : UInt16 := 0x10
def EXN_PUS_TC_ACK_READ_DEFAULT : UInt8 := 0x8

-- Space, tab, carriage return and newline.
def blank (c : UInt8) : Bool := c = 32 || c = 9 || c = 13 || c = 10

def trim (value : Text) : Text := (value.dropWhile blank).rdropWhile blank

inductive Event
  | Escape
  | Return
  | character (input : Text)
  | special (input : Text)
  deriving DecidableEq, Repr

/-- What is left of the handler of an event. Every access to what the threads share is a step. -/
inductive Handler
  | done
  | storeHk (enabled : Bool) (rest : Handler)
  | loadDaemon (yes no : Handler)
  | loadDevice (yes no : Handler)
  | postHk (rest : Handler)
  | sendCommand (command : Text) (rest : Handler)
  | setNotice (message : Text) (rest : Handler)
  | clearInput
  deriving DecidableEq, Repr

-- The handler of `Event::Return` in command mode, from where it has the command.
def submit (command : Text) : Handler :=
  if command = [] then .done
  else if command = text "HK_ENABLE" then
    .storeHk true (.setNotice (text "periodic System HK enabled") .clearInput)
  else if command = text "HK_DISABLE" then
    .storeHk false (.setNotice (text "periodic System HK disabled") .clearInput)
  else if command = text "HK_REQ" then
    let refused := .setNotice
      (text "ERROR: HK_REQ requires daemon IPC and device link to be connected") .clearInput
    .loadDaemon
      (.loadDevice (.postHk (.setNotice (text "System HK request queued") .clearInput)) refused) refused
  else
    .loadDaemon
      (.sendCommand command (.setNotice (text "sent daemon command: " ++ command) .clearInput))
      (.setNotice (text "ERROR: daemon IPC is not connected") .clearInput)

/-- `Cursor` is what the input component keeps to itself. `sent` is what was passed to the client, in
order, and `posted` counts the closures of `send_system_hk` that are yet to run. -/
structure Console (Cursor : Type) extends UiScreen where
  hkEnabled : Bool := false
  tcSequence : UInt16 := 1
  cmdMode : Bool := false
  helpMode : Bool := false
  cmdInput : Text := []
  cursor : Cursor
  handler : Handler := .done
  leaving : Bool := false
  stopped : Bool := false
  posted : Nat := 0
  sent : List Frame := []

namespace Console

variable {Cursor : Type}

def setNotice (c : Console Cursor) (message : Text) : Console Cursor := { c with noticeLine := message }

def systemHkTc (lib : CcsdsPack) (sequence : UInt16) : Built :=
  buildPusCTc lib APID_OBC sequence SVC_HK SUB_SYS_HK_REQUEST PUSID_GS EXN_PUS_TC_ACK_READ_DEFAULT []

def sendSystemHk (lib : CcsdsPack) (c : Console Cursor) : Console Cursor :=
  let built := systemHkTc lib c.tcSequence
  if built.ok = false then c.setNotice (text "ERROR: cannot build PUS-C System HK TC: " ++ built.error)
  else
    { c with
      sent := c.sent ++ [{ type := .PacketSend, payload := built.packet }]
      tcSequence := (c.tcSequence + 1) &&& 0x3FFF }

-- The component given to `CatchEvent`; `edit` is `OnEvent` of the input component.
def onEvent (edit : Cursor → Text → Event → Cursor × Text) (c : Console Cursor) (e : Event) :
    Console Cursor :=
  if c.helpMode then
    if e = .Escape ∨ e = .character (text "h") then { c with helpMode := false } else c
  else if c.cmdMode then
    if e = .Escape then { c with cmdMode := false }
    else if e = .Return then { c with handler := submit (uppercase (trim c.cmdInput)) }
    else
      let edited := edit c.cursor c.cmdInput e
      { c with cursor := edited.1, cmdInput := edited.2 }
  else if e = .character (text "q") ∨ e = .Escape then { c with leaving := true }
  else if e = .character (text "h") then { c with helpMode := true }
  else if e = .character (text "c") then { c with cmdMode := true }
  else c

-- The next step of the handler.
def advance (c : Console Cursor) : Console Cursor :=
  match c.handler with
  | .done => c
  | .storeHk hkEnabled handler => { c with hkEnabled, handler }
  | .loadDaemon yes no => { c with handler := if c.daemonConnected then yes else no }
  | .loadDevice yes no => { c with handler := if c.deviceConnected then yes else no }
  | .postHk handler => { c with posted := c.posted + 1, handler }
  | .sendCommand command handler =>
    { c with sent := c.sent ++ [{ type := .Command, payload := packString command }], handler }
  | .setNotice noticeLine handler => { c with noticeLine, handler }
  | .clearInput => { c with cmdInput := [], handler := .done }

/-- A step of the thread of the screen, which waits for an event, goes on with a handler or leaves the
loop, or of the thread of the client: its callbacks, the timer and the closures of `send_system_hk`. -/
inductive Action
  | event (e : Event)
  | advance
  | notice (notice : Notice)
  | tick
  | runHk
  | stop
  deriving DecidableEq, Repr

def step (lib : CcsdsPack) (edit : Cursor → Text → Event → Cursor × Text) (c : Console Cursor) :
    Action → Outcome (Console Cursor)
  | .event e => if c.stopped ∨ c.handler ≠ .done then .disabled else .next (c.onEvent edit e)
  | .advance => if c.handler = .done then .disabled else .next c.advance
  | .notice notice =>
    if c.stopped then .disabled
    else outcome ((c.toUiScreen.onNotice notice).map fun toUiScreen => { c with toUiScreen })
  | .tick =>
    if c.stopped then .disabled
    else .next (if c.hkEnabled && c.daemonConnected && c.deviceConnected then c.sendSystemHk lib else c)
  | .runHk =>
    if c.stopped ∨ c.posted = 0 then .disabled
    else .next ({ c with posted := c.posted - 1 }.sendSystemHk lib)
  -- The loop was left; the timer and the thread of the client are stopped.
  | .stop =>
    if c.leaving ∧ c.handler = .done then .next { c with hkEnabled := false, stopped := true }
    else .disabled

-- What asks for a System HK: the timer, when all is connected, and `HK_REQ`.
def asks (c : Console Cursor) : Action → List Action
  | .tick => if c.hkEnabled && c.daemonConnected && c.deviceConnected then [.tick] else []
  | .advance =>
    match c.handler with
    | .postHk _ => [.advance]
    | _ => []
  | .event _ | .notice _ | .runHk | .stop => []

end Console

-- The commands that a handler may still send.
def Handler.commands : Handler → List Text
  | .done | .clearInput => []
  | .storeHk _ rest | .postHk rest | .setNotice _ rest => rest.commands
  | .loadDaemon yes no | .loadDevice yes no => yes.commands ++ no.commands
  | .sendCommand command rest => command :: rest.commands

-- A command for the daemon, as it is sent.
structure Plain (command : Text) : Prop where
  nonempty : command ≠ []
  upper : uppercase command = command
  trimmed : trim command = command
  foreign : command ∉ [text "HK_ENABLE", text "HK_DISABLE", text "HK_REQ"]

-- The counts of the TCs: from 1 on, modulo `2^14`.
def count (k : Nat) : UInt16 := UInt16.ofNat ((1 + k) % 2 ^ 14)

def hkFrame (lib : CcsdsPack) (k : Nat) : Frame :=
  { type := .PacketSend, payload := (Console.systemHkTc lib (count k)).packet }

def upper (c : UInt8) : UInt8 := if 97 ≤ c ∧ c ≤ 122 then c - 32 else c

theorem every_octet (p : UInt8 → Prop) (all : ∀ n : Fin 256, p (UInt8.ofNat n)) (c : UInt8) : p c := by
  have here := all ⟨c.toNat, c.toNat_lt⟩
  rwa [UInt8.ofNat_toNat] at here

theorem blank_upper (c : UInt8) : blank (upper c) = blank c := by
  have all : ∀ n : Fin 256, blank (upper (UInt8.ofNat n)) = blank (UInt8.ofNat n) := by decide +kernel
  exact every_octet (fun c => blank (upper c) = blank c) all c

theorem upper_upper (c : UInt8) : upper (upper c) = upper c := by
  have all : ∀ n : Fin 256, upper (upper (UInt8.ofNat n)) = upper (UInt8.ofNat n) := by decide +kernel
  exact every_octet (fun c => upper (upper c) = upper c) all c

theorem uppercase_uppercase (value : Text) : uppercase (uppercase value) = uppercase value := by
  rw [uppercase, uppercase, List.map_map]
  exact List.map_congr_left fun c _ => upper_upper c

theorem trim_uppercase (value : Text) : trim (uppercase value) = uppercase (trim value) := by
  have same : blank ∘ upper = blank := funext blank_upper
  change ((value.map upper).dropWhile blank).rdropWhile blank =
    ((value.dropWhile blank).rdropWhile blank).map upper
  simp only [List.rdropWhile, List.dropWhile_map, ← List.map_reverse, same]

theorem trim_trim (value : Text) : trim (trim value) = trim value := by
  have begins : (trim value).dropWhile blank = trim value := by
    rw [List.dropWhile_eq_self_iff]
    intro long first
    have cut : trim value <+: value.dropWhile blank := List.rdropWhile_prefix blank _
    have inside := Nat.lt_of_lt_of_le long cut.length_le
    rw [cut.getElem long] at first
    exact List.dropWhile_get_zero_not blank value inside first
  conv => lhs; rw [trim, begins]
  exact List.rdropWhile_idempotent blank _

theorem submit_plain {value command : Text} (sends : command ∈ (submit (uppercase (trim value))).commands) :
    Plain command := by
  unfold submit at sends
  split at sends
  next => cases sends
  next filled =>
  split at sends
  next => cases sends
  next enable =>
  split at sends
  next => cases sends
  next disable =>
  split at sends
  next => cases sends
  next request =>
    obtain rfl : command = uppercase (trim value) := by simpa [Handler.commands] using sends
    refine ⟨filled, uppercase_uppercase _, ?_, ?_⟩
    · rw [trim_uppercase, trim_trim]
    · simp only [List.mem_cons, List.not_mem_nil, or_false, not_or]
      exact ⟨enable, disable, request⟩

theorem count_succ (n : Nat) : (count n + 1) &&& 0x3FFF = count (n + 1) := by
  have sum : count n + 1 = UInt16.ofNat ((1 + n) % 2 ^ 14 + 1) := by
    rw [UInt16.ofNat_add]
    rfl
  rw [sum, mask_ofNat, Nat.mod_add_mod, count, Nat.add_assoc]

namespace Console

variable {Cursor : Type} {lib : CcsdsPack} {edit : Cursor → Text → Event → Cursor × Text}
  {c t : Console Cursor}

/-- The TCs sent so far carry the first of the counts, one for each time that one was asked for and is
no longer waiting, unless the next one cannot be built. -/
def Counted (lib : CcsdsPack) (c : Console Cursor) (asked : Nat) : Prop :=
  ∃ n, c.sent.filter (fun f => f.type = .PacketSend) = (List.range n).map (hkFrame lib) ∧
    (∀ k, k < n → (systemHkTc lib (count k)).ok = true) ∧ c.tcSequence = count n ∧
    n + c.posted ≤ asked ∧ ((systemHkTc lib (count n)).ok = true → n + c.posted = asked)

def SendsPlain (c : Console Cursor) : Prop :=
  (∀ command ∈ c.handler.commands, Plain command) ∧
  ∀ f ∈ c.sent, f.type ≠ .PacketSend →
    ∃ command, Plain command ∧ f = { type := .Command, payload := packString command }

def OneMode (c : Console Cursor) : Prop := c.cmdMode = true → c.helpMode = false

theorem sendSystemHk_failed (failed : (systemHkTc lib c.tcSequence).ok = false) :
    c.sendSystemHk lib = c.setNotice
      (text "ERROR: cannot build PUS-C System HK TC: " ++ (systemHkTc lib c.tcSequence).error) :=
  if_pos failed

theorem sendSystemHk_built (built : (systemHkTc lib c.tcSequence).ok = true) :
    c.sendSystemHk lib = { c with
      sent := c.sent ++ [{ type := .PacketSend, payload := (systemHkTc lib c.tcSequence).packet }]
      tcSequence := (c.tcSequence + 1) &&& 0x3FFF } :=
  if_neg (by simp [built])

theorem Counted.same {asked : Nat} (counted : c.Counted lib asked) (sent : t.sent = c.sent)
    (sequence : t.tcSequence = c.tcSequence) (posted : t.posted = c.posted) : t.Counted lib asked := by
  obtain ⟨n, packets, built, count, few, all⟩ := counted
  refine ⟨n, sent ▸ packets, built, sequence.trans count, ?_, fun builds => ?_⟩
  · rw [posted]
    exact few
  · rw [posted]
    exact all builds

theorem Counted.sendSystemHk {asked : Nat} (counted : c.Counted lib asked) :
    (c.sendSystemHk lib).Counted lib (asked + 1) := by
  obtain ⟨n, packets, built, sequence, few, all⟩ := counted
  cases builds : (systemHkTc lib (count n)).ok with
  | false =>
    rw [sendSystemHk_failed (sequence ▸ builds)]
    refine ⟨n, packets, built, sequence, Nat.le_succ_of_le few, fun again => ?_⟩
    rw [builds] at again
    cases again
  | true =>
    rw [sendSystemHk_built (sequence ▸ builds), sequence]
    refine ⟨n + 1, ?_, fun k inside => ?_, count_succ n, ?_, fun _ => ?_⟩
    · rw [List.range_succ, List.map_append, ← packets]
      exact List.filter_append _ _
    · rcases Nat.lt_succ_iff_lt_or_eq.mp inside with before | rfl
      · exact built k before
      · exact builds
    · change n + 1 + c.posted ≤ asked + 1
      omega
    · have same := all builds
      change n + 1 + c.posted = asked + 1
      omega

theorem SendsPlain.sendSystemHk (plain : c.SendsPlain) : (c.sendSystemHk lib).SendsPlain := by
  cases built : (systemHkTc lib c.tcSequence).ok with
  | false =>
    rw [sendSystemHk_failed built]
    exact plain
  | true =>
    rw [sendSystemHk_built built]
    refine ⟨plain.1, fun f member other => ?_⟩
    rcases List.mem_append.mp member with before | here
    · exact plain.2 f before other
    · rw [List.mem_singleton.mp here] at other
      exact absurd rfl other

theorem onEvent_keeps (e : Event) :
    (c.onEvent edit e).sent = c.sent ∧ (c.onEvent edit e).tcSequence = c.tcSequence ∧
      (c.onEvent edit e).posted = c.posted ∧
      ((c.onEvent edit e).handler = c.handler ∨
        (c.onEvent edit e).handler = submit (uppercase (trim c.cmdInput))) := by
  unfold onEvent
  repeat' split
  all_goals first | exact ⟨rfl, rfl, rfl, .inl rfl⟩ | exact ⟨rfl, rfl, rfl, .inr rfl⟩

theorem OneMode.onEvent (modes : c.OneMode) (e : Event) : (c.onEvent edit e).OneMode := by
  unfold Console.onEvent
  split
  next help =>
    split
    next => exact fun _ => rfl
    next => exact modes
  next closed =>
  have closed : c.helpMode = false := Bool.eq_false_iff.mpr closed
  split
  next =>
    split
    next => exact fun opened => by cases opened
    next => split <;> exact fun _ => closed
  next outside =>
  split
  next => exact fun _ => closed
  next =>
    split
    next => exact fun opened => absurd opened outside
    next => split <;> exact fun _ => closed

/-- What holds of a console in the course of a run, with all that asked for a System HK so far. -/
structure Orderly (lib : CcsdsPack) (c : Console Cursor) (asked : List Action) : Prop where
  modes : c.OneMode
  plain : c.SendsPlain
  counted : c.Counted lib asked.length

theorem Orderly.advance {asked : List Action} (orderly : c.Orderly lib asked) :
    c.advance.Orderly lib (asked ++ c.asks .advance) := by
  obtain ⟨modes, ⟨plain, sent⟩, counted⟩ := orderly
  cases handler : c.handler with
  | done =>
    simp only [Console.advance, asks, handler, List.append_nil]
    exact ⟨modes, ⟨plain, sent⟩, counted⟩
  | storeHk enabled rest | setNotice message rest =>
    rw [handler] at plain
    simp only [Console.advance, asks, handler, List.append_nil]
    exact ⟨modes, ⟨plain, sent⟩, counted.same rfl rfl rfl⟩
  | clearInput =>
    simp only [Console.advance, asks, handler, List.append_nil]
    exact ⟨modes, ⟨fun _ member => (by cases member), sent⟩, counted.same rfl rfl rfl⟩
  | loadDaemon yes no | loadDevice yes no =>
    rw [handler] at plain
    simp only [Console.advance, asks, handler, List.append_nil]
    refine ⟨modes, ⟨fun command member => ?_, sent⟩, counted.same rfl rfl rfl⟩
    dsimp only at member
    split at member
    next => exact plain command (List.mem_append_left _ member)
    next => exact plain command (List.mem_append_right _ member)
  | postHk rest =>
    rw [handler] at plain
    simp only [Console.advance, asks, handler]
    refine ⟨modes, ⟨plain, sent⟩, ?_⟩
    obtain ⟨n, packets, built, sequence, few, all⟩ := counted
    rw [List.length_append]
    exact ⟨n, packets, built, sequence, Nat.succ_le_succ few, fun builds => congrArg Nat.succ (all builds)⟩
  | sendCommand command rest =>
    rw [handler] at plain
    obtain ⟨first, later⟩ := List.forall_mem_cons.mp plain
    simp only [Console.advance, asks, handler, List.append_nil]
    refine ⟨modes, ⟨later, fun f member other => ?_⟩, ?_⟩
    · rcases List.mem_append.mp member with before | here
      · exact sent f before other
      · exact ⟨command, first, List.mem_singleton.mp here⟩
    · obtain ⟨n, packets, counts⟩ := counted
      refine ⟨n, ?_, counts⟩
      rw [← packets, List.filter_append]
      exact List.append_nil _

theorem OneMode.sendSystemHk (modes : c.OneMode) : (c.sendSystemHk lib).OneMode := by
  cases built : (systemHkTc lib c.tcSequence).ok with
  | false =>
    rw [sendSystemHk_failed built]
    exact modes
  | true =>
    rw [sendSystemHk_built built]
    exact modes

theorem Orderly.step {asked : List Action} {a : Action} (orderly : c.Orderly lib asked)
    (taken : c.step lib edit a = .next t) : t.Orderly lib (asked ++ c.asks a) := by
  have same : asked ++ [] = asked := List.append_nil asked
  cases a with
  | event e =>
    simp only [Console.step] at taken
    split at taken
    next => cases taken
    next =>
      cases taken
      obtain ⟨sent, sequence, posted, handler⟩ := @onEvent_keeps _ edit c e
      refine ⟨orderly.modes.onEvent e, ⟨?_, ?_⟩, ?_⟩
      · rcases handler with kept | submits
        · rw [kept]
          exact orderly.plain.1
        · rw [submits]
          exact fun _ => submit_plain
      · rw [sent]
        exact orderly.plain.2
      · rw [asks, same]
        exact orderly.counted.same sent sequence posted
  | advance =>
    simp only [Console.step] at taken
    split at taken
    next => cases taken
    next =>
      cases taken
      exact orderly.advance
  | notice notice =>
    simp only [Console.step] at taken
    split at taken
    next => cases taken
    next =>
      obtain ⟨screen, _, rfl⟩ := Option.map_eq_some_iff.mp (outcome_eq_next taken)
      rw [asks, same]
      exact ⟨orderly.modes, orderly.plain, orderly.counted.same rfl rfl rfl⟩
  | tick =>
    simp only [Console.step] at taken
    split at taken
    next => cases taken
    next =>
      unfold asks
      split at taken
      next due =>
        cases taken
        rw [if_pos due]
        refine ⟨orderly.modes.sendSystemHk, orderly.plain.sendSystemHk, ?_⟩
        rw [List.length_append]
        exact orderly.counted.sendSystemHk
      next quiet =>
        cases taken
        rw [if_neg quiet, same]
        exact orderly
  | runHk =>
    simp only [Console.step] at taken
    split at taken
    next => cases taken
    next waiting =>
      cases taken
      rw [asks, same]
      have modes : ({ c with posted := c.posted - 1 } : Console Cursor).OneMode := orderly.modes
      have plain : ({ c with posted := c.posted - 1 } : Console Cursor).SendsPlain := orderly.plain
      refine ⟨modes.sendSystemHk, plain.sendSystemHk, ?_⟩
      obtain ⟨n, packets, built, sequence, few, all⟩ := orderly.counted
      have some_posted : 0 < c.posted := by omega
      have counted : ({ c with posted := c.posted - 1 } : Console Cursor).Counted lib (asked.length - 1) := by
        refine ⟨n, packets, built, sequence, ?_, fun builds => ?_⟩
        · change n + (c.posted - 1) ≤ asked.length - 1
          omega
        · have same := all builds
          change n + (c.posted - 1) = asked.length - 1
          omega
      have asked_some : asked.length - 1 + 1 = asked.length := by omega
      exact asked_some ▸ counted.sendSystemHk
  | stop =>
    simp only [Console.step] at taken
    split at taken
    next =>
      cases taken
      rw [asks, same]
      exact ⟨orderly.modes, orderly.plain, orderly.counted.same rfl rfl rfl⟩
    next => cases taken

theorem orderly_started (lib : CcsdsPack) (cursor : Cursor) :
    ({ cursor } : Console Cursor).Orderly lib [] :=
  ⟨fun opened => (by cases opened), ⟨fun _ member => (by cases member), fun _ member => (by cases member)⟩,
    0, rfl, fun _ inside => absurd inside (Nat.not_lt_zero _), rfl, Nat.le_refl 0, fun _ => rfl⟩

end Console

end ExnGs.Ui
