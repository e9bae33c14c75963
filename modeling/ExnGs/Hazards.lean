import ExnGs.ClientStream
import ExnGs.Isolation

set_option autoImplicit false

-- What makes the daemon do what is undefined, and which clients can.
namespace ExnGs

open Proto SpacePacket Framer Machine

theorem Proto.tryDecode_undefined {buffer : List UInt8} {out : Frame} :
    tryDecode buffer out = none ↔ Overruns buffer := by
  refine ⟨fun fault => ?_, tryDecode_overrun buffer out⟩
  by_contra safe
  by_cases holds : HoldsFrame buffer
  · rw [tryDecode_frame buffer out holds] at fault
    cases fault
  · rw [tryDecode_wait buffer out holds safe] at fault
    cases fault

theorem Proto.unpackString_defined {p : List UInt8} (safe : ¬ Overruns p) (s : Text) :
    ∃ ok s', unpackString p s = some (ok, s') := by
  by_cases holds : HoldsString p
  · exact ⟨_, _, unpackString_string p s holds⟩
  · exact ⟨_, _, unpackString_wait p s holds safe⟩

namespace Daemon.App

/-- What is undefined in the daemon. It reads past the end of what a client has sent, after the length
of a frame, or of the string in one, that wraps; or the handler of a write that succeeded runs when the
socket of its session has been closed, and takes the front of an empty queue. -/
inductive Hazard (d : App) : Prop
  | frame (id : Nat) (resumed : d.rest = some (.decode id)) (wraps : Overruns (d.buffer id))
  | string (id : Nat) (f : Frame) (decodes : d.decodes id .run = some f)
      (asks : IpcSession.isRequest f = true) (command : f.type ≠ .PacketSend) (wraps : Overruns f.payload)
  | write (id : Nat) (bytes : SharedBytes) (data : List UInt8) (ready : List Task) (idle : d.rest = none)
      (first : d.ready = .session id (.write bytes) (.ok data) :: ready) (closed : d.socketOpen id = false)

variable {env : Env} {d t : App} {id : Nat}

-- What is assumed of the library: it accepts packets by their headers.
structure Inspects (lib : CcsdsPack) : Prop where
  header : DependsOnHeader lib.declaredPacketSize
  declares : DeclaresLength lib.declaredPacketSize
  parses : ParsesHeader lib

section

variable (inspects : Inspects env.lib)

include inspects

theorem decodeMeta_defined (now : UInt64) (packet : List UInt8) :
    ∃ result, decodeMeta env.lib now packet = some result := by
  cases declared : env.lib.declaredPacketSize packet with
  | error message => exact ⟨_, by rw [decodeMeta, declared]⟩
  | ok size =>
    by_cases whole : size = packet.length
    · rw [whole] at declared
      obtain ⟨m, accepted, -⟩ :=
        decodeMeta_whole inspects.header inspects.declares inspects.parses declared now
      exact ⟨_, accepted⟩
    · exact ⟨.error (text "Space Packet size does not match CCSDS Packet Data Length"), by
        simp only [decodeMeta, declared, ne_eq, whole, not_false_eq_true, if_true]⟩

theorem onLink_defined (d : App) (turn : SerialLink × List LinkEvent) : ∃ t, d.onLink env turn = some t := by
  have decodes := decodesEmitted inspects.header inspects.declares inspects.parses
  have each : ∀ (d : App) event, ∃ t, d.onLinkEvent env event = some t := by
    intro d event
    cases event with
    | onBytes generation data =>
      obtain ⟨t, handled, -⟩ := onBytes_announces decodes generation data d
      exact ⟨t, handled⟩
    | _ => exact ⟨_, rfl⟩
  have all : ∀ (events : List LinkEvent) (d : App), ∃ t, events.foldlM (onLinkEvent env) d = some t := by
    intro events
    induction events with
    | nil => exact fun d => ⟨d, rfl⟩
    | cons event events ih =>
      intro d
      obtain ⟨u, first⟩ := each d event
      obtain ⟨t, later⟩ := ih u
      exact ⟨t, by rw [List.foldlM_cons, first]; exact later⟩
  exact all turn.2 { d with link := turn.1 }

theorem onFrame_defined {f : Frame} (safe : f.type = .PacketSend ∨ ¬ Overruns f.payload)
    (d : App) (id : Nat) : ∃ t, d.onFrame env f id = some t := by
  unfold onFrame
  split
  next =>
    obtain ⟨decoded, inspected⟩ := decodeMeta_defined inspects (env.now d.clock) f.payload
    rw [inspected, Option.bind_eq_bind, Option.bind_some]
    cases decoded with
    | error message => exact ⟨_, rfl⟩
    | ok m =>
      simp only
      split
      next => exact ⟨_, rfl⟩
      next =>
        obtain ⟨t, posted⟩ := onLink_defined inspects { d with clock := d.clock + 1 }
          (d.link, d.link.writeBytes f.payload)
        simp only [posted]
        exact ⟨_, rfl⟩
  next other =>
    obtain ⟨ok, command, unpacked⟩ := unpackString_defined (safe.resolve_left other) []
    rw [unpacked, Option.bind_eq_bind, Option.bind_some]
    simp only
    split
    next => exact ⟨_, rfl⟩
    next =>
    split
    next =>
      split
      next => exact ⟨_, rfl⟩
      next => exact onLink_defined inspects d _
    next =>
    split
    next => exact onLink_defined inspects d _
    next =>
    split
    next =>
      obtain ⟨u, stopped⟩ := onLink_defined inspects d d.link.stop
      obtain ⟨t, started⟩ := onLink_defined inspects u (u.link.start env.device)
      exact ⟨t, by rw [Option.bind_eq_bind, stopped]; exact started⟩
    next =>
    split
    next => exact ⟨_, rfl⟩
    next =>
    split
    next => exact ⟨_, rfl⟩
    next =>
    split
    next => exact ⟨_, rfl⟩
    next => exact ⟨_, rfl⟩

theorem onFrame_undefined (f : Frame) (d : App) (id : Nat) :
    d.onFrame env f id = none ↔ f.type ≠ .PacketSend ∧ Overruns f.payload := by
  constructor
  · intro fault
    by_contra safe
    obtain ⟨t, handled⟩ := onFrame_defined inspects (f := f)
      (by by_cases packet : f.type = .PacketSend <;> simp_all) d id
    rw [fault] at handled
    cases handled
  · rintro ⟨other, overruns⟩
    rw [onFrame, if_neg other, unpackString_overrun f.payload [] overruns]
    rfl

theorem handleFrame_undefined (f : Frame) (d : App) (id : Nat) (session : IpcSession) :
    d.handleFrame env id session f = none ↔
      IpcSession.isRequest f = true ∧ f.type ≠ .PacketSend ∧ Overruns f.payload := by
  simp only [handleFrame]
  split
  next asks => rw [onFrame_undefined inspects, and_iff_right asks]
  next other => exact ⟨fun fault => (by cases fault), fun hazard => absurd hazard.1 other⟩

theorem decode_undefined {session : IpcSession} (resumed : d.rest = some (.decode id))
    (here : d.sessions[id]? = some session) :
    { d with rest := none }.decode env id session = none ↔ Overruns (d.buffer id) ∨
      ∃ f, d.decodes id .run = some f ∧ IpcSession.isRequest f = true ∧ f.type ≠ .PacketSend ∧
        Overruns f.payload := by
  have buffer := buffer_eq here
  rw [buffer]
  cases decoded : tryDecode session.rxbuf .unset with
  | none =>
    have fault : App.decode env { d with rest := none } id session = none := by simp [decode, decoded]
    exact ⟨fun _ => .inl (tryDecode_undefined.mp decoded), fun _ => fault⟩
  | some result =>
    obtain ⟨found, rxbuf, f⟩ := result
    have safe : ¬ Overruns session.rxbuf := by
      intro wraps
      rw [tryDecode_overrun session.rxbuf .unset wraps] at decoded
      cases decoded
    rw [or_iff_right safe]
    rcases tryDecode_cases decoded with ⟨rfl, size, cut, -⟩ | ⟨rfl, waiting, -, -⟩
    · rw [decode_found decoded, handleFrame_undefined inspects, decodes_found resumed (buffer ▸ cut)]
      constructor
      · exact fun fault => ⟨f, rfl, fault⟩
      · rintro ⟨_, same, fault⟩
        exact Option.some.inj same ▸ fault
    · rw [decode_waits decoded, decodes_waiting (buffer ▸ waiting)]
      constructor
      · intro fault
        cases fault
      · rintro ⟨_, same, -⟩
        cases same

theorem resume_undefined {rest : Rest} (resumed : d.rest = some rest) :
    { d with rest := none }.resume env rest = none ↔
      ∃ id, rest = .decode id ∧ (Overruns (d.buffer id) ∨
        ∃ f, d.decodes id .run = some f ∧ IpcSession.isRequest f = true ∧ f.type ≠ .PacketSend ∧
          Overruns f.payload) := by
  cases rest with
  | boot =>
    constructor
    · intro fault
      rw [resume] at fault
      split at fault
      next => cases fault
      next =>
        obtain ⟨t, handled⟩ := onLink_defined inspects { d with rest := none } (d.link.start env.device)
        cases handled.symm.trans fault
    · rintro ⟨_, other, -⟩
      cases other
  | greet id =>
    constructor
    · intro fault
      cases fault
    · rintro ⟨_, other, -⟩
      cases other
  | decode id =>
    have same : (∃ own, Rest.decode id = .decode own ∧ (Overruns (d.buffer own) ∨
        ∃ f, d.decodes own .run = some f ∧ IpcSession.isRequest f = true ∧ f.type ≠ .PacketSend ∧
          Overruns f.payload)) ↔ Overruns (d.buffer id) ∨
        ∃ f, d.decodes id .run = some f ∧ IpcSession.isRequest f = true ∧ f.type ≠ .PacketSend ∧
          Overruns f.payload := by
      constructor
      · rintro ⟨_, same, hazard⟩
        exact Rest.decode.inj same ▸ hazard
      · exact fun hazard => ⟨id, rfl, hazard⟩
    rw [same]
    simp only [resume]
    split
    next gone =>
      have gone : d.sessions[id]? = none := gone
      refine ⟨fun fault => (by cases fault), fun hazard => ?_⟩
      rw [buffer_gone gone, decodes_waiting (waiting_gone gone)] at hazard
      rcases hazard with wraps | ⟨f, found, -⟩
      · exact absurd wraps incomplete_nil.not_overruns
      · cases found
    next session here => exact decode_undefined inspects resumed here

theorem runTask_defined {task : Task} (other : ∀ id bytes data, task ≠ .session id (.write bytes) (.ok data))
    (d : App) : ∃ t, d.runTask env task = some t := by
  cases task with
  | accepted result => cases result <;> exact ⟨_, rfl⟩
  | send id bytes =>
    simp only [runTask]
    split <;> exact ⟨_, rfl⟩
  | link op result => exact onLink_defined inspects d (d.link.handler op result)
  | transmit bytes => exact onLink_defined inspects d (d.link.runWrite bytes)
  | session id op result =>
    simp only [runTask]
    split
    next => exact ⟨_, rfl⟩
    next =>
      cases op with
      | read => cases result <;> exact ⟨_, rfl⟩
      | write bytes =>
        cases result with
        | error message => exact ⟨_, rfl⟩
        | ok data => exact absurd rfl (other id bytes data)

theorem runTask_undefined (task : Task) (d : App) :
    d.runTask env task = none ↔ ∃ id bytes data, task = .session id (.write bytes) (.ok data) ∧
      id < d.sessions.length ∧ d.txQueue id = [] := by
  by_cases written : ∃ id bytes data, task = .session id (.write bytes) (.ok data)
  · obtain ⟨id, bytes, data, rfl⟩ := written
    have same : (∃ own b more, Task.session id (.write bytes) (.ok data) = .session own (.write b) (.ok more) ∧
        own < d.sessions.length ∧ d.txQueue own = []) ↔ id < d.sessions.length ∧ d.txQueue id = [] := by
      constructor
      · rintro ⟨own, b, more, same, late⟩
        cases same
        exact late
      · exact fun late => ⟨id, bytes, data, rfl, late⟩
    rw [same]
    simp only [runTask]
    split
    next gone =>
      constructor
      · intro fault
        cases fault
      · rintro ⟨known, -⟩
        rw [List.getElem?_eq_getElem known] at gone
        cases gone
    next session here =>
      have queue : d.txQueue id = session.txQueue := by rw [txQueue, here]; rfl
      rw [and_iff_right (List.getElem?_eq_some_iff.mp here).1, queue, Option.map_eq_none_iff]
      cases held : session.txQueue with
      | nil => simp [IpcSession.onWritten, held]
      | cons first rest => simp [IpcSession.onWritten, held]
  · obtain ⟨t, ran⟩ := runTask_defined inspects
      (fun id bytes data same => written ⟨id, bytes, data, same⟩) d
    rw [ran]
    constructor
    · intro fault
      cases fault
    · rintro ⟨id, bytes, data, same, -⟩
      exact absurd ⟨id, bytes, data, same⟩ written

end

-- In the course of a run the queue of a session is empty under a handler only if the socket is closed.
theorem late_write {transport : Transport} {actions : List Action} {bytes : SharedBytes} {data : List UInt8}
    {ready : List Task} (ran : run (step env) (initial transport) actions = some d)
    (first : d.ready = .session id (.write bytes) (.ok data) :: ready) :
    id < d.sessions.length ∧ (d.txQueue id = [] ↔ d.socketOpen id = false) := by
  have carries := (carries_run id ran).1
  have mine : Task.wrote id (.session id (.write bytes) (.ok data)) = some (bytes, true) := by
    rw [Task.wrote, if_pos rfl]
    rfl
  have ended : (d.wire id).ended = (bytes, true) :: ready.filterMap (Task.wrote id) := by
    simp only [wire, first]
    exact List.filterMap_cons_some mine
  have known : ∀ {k : Bool}, (d.wire id).known = k → decide (id < d.sessions.length) = k :=
    fun same => same
  cases carries with
  | absent unknown =>
    rw [unknown] at ended
    cases ended
  | idle _ _ _ _ none | busy _ _ _ _ none =>
    rw [ended] at none
    cases none
  | failed _ _ _ _ one =>
    rw [ended] at one
    cases one
  | written born opened queue =>
    refine ⟨of_decide_eq_true (known born), fun empty => ?_, fun closed => ?_⟩
    · have held : (d.wire id).queue = [] := empty
      rw [queue] at held
      cases held
    · have shut : (d.wire id).opened = false := closed
      rw [opened] at shut
      cases shut
  | closed born closed queue =>
    exact ⟨of_decide_eq_true (known born), fun _ => closed, fun _ => queue⟩

theorem outcome_undefined {σ : Type} {result : Option σ} : outcome result = .undefined ↔ result = none := by
  cases result with
  | none => exact ⟨fun _ => rfl, fun _ => rfl⟩
  | some state => exact ⟨fun fault => (by cases fault), fun fault => (by cases fault)⟩

theorem finish_undefined (i : Nat) (result : Completion) : step env d (.finish i result) ≠ .undefined := by
  intro fault
  simp only [step] at fault
  split at fault
  next => cases fault
  next => split at fault <;> cases fault

/-- In the course of a run the hazards are all that is undefined. -/
theorem step_undefined (inspects : Inspects env.lib) {transport : Transport} {actions : List Action}
    (ran : run (step env) (initial transport) actions = some d) (a : Action) :
    step env d a = .undefined ↔ a = .run ∧ d.Hazard := by
  cases a with
  | finish i result =>
    constructor
    · exact fun fault => absurd fault (finish_undefined i result)
    · rintro ⟨other, -⟩
      cases other
  | run =>
    rw [and_iff_right rfl]
    cases resumed : d.rest with
    | some rest =>
      simp only [step, resumed]
      rw [outcome_undefined, resume_undefined inspects resumed]
      constructor
      · rintro ⟨id, rfl, wraps | ⟨f, decodes, asks, command, wraps⟩⟩
        · exact .frame id resumed wraps
        · exact .string id f decodes asks command wraps
      · intro hazard
        cases hazard with
        | frame id here wraps => exact ⟨id, Option.some.inj (resumed.symm.trans here), .inl wraps⟩
        | string id f decodes asks command wraps =>
          refine ⟨id, ?_, .inr ⟨f, decodes, asks, command, wraps⟩⟩
          by_contra foreign
          have elsewhere : d.rest ≠ some (.decode id) := by
            rw [resumed]
            exact fun same => foreign (Option.some.inj same)
          rw [decodes_foreign elsewhere] at decodes
          cases decodes
        | write id bytes data ready idle =>
          rw [resumed] at idle
          cases idle
    | none =>
      -- Nothing is left of a handler, so that the hazards of the loop of a session are none.
      have idle : d.Hazard ↔ ∃ id bytes data ready,
          d.ready = .session id (.write bytes) (.ok data) :: ready ∧ d.socketOpen id = false := by
        constructor
        · intro hazard
          cases hazard with
          | frame id here =>
            rw [resumed] at here
            cases here
          | string id f decodes =>
            rw [decodes_foreign (by rw [resumed]; exact fun same => (by cases same))] at decodes
            cases decodes
          | write id bytes data ready _ first closed => exact ⟨id, bytes, data, ready, first, closed⟩
        · rintro ⟨id, bytes, data, ready, first, closed⟩
          exact .write id bytes data ready resumed first closed
      rw [idle]
      cases waiting : d.ready with
      | nil =>
        simp only [step, resumed, waiting]
        constructor
        · intro fault
          cases fault
        · rintro ⟨_, _, _, _, other, -⟩
          cases other
      | cons task ready =>
        simp only [step, resumed, waiting]
        rw [outcome_undefined, runTask_undefined inspects]
        constructor
        · rintro ⟨id, bytes, data, rfl, -, empty⟩
          exact ⟨id, bytes, data, ready, rfl, (late_write ran waiting).2.mp empty⟩
        · rintro ⟨id, bytes, data, rest, first, closed⟩
          obtain ⟨rfl, rfl⟩ := List.cons.inj first
          obtain ⟨known, empty⟩ := late_write ran waiting
          exact ⟨id, bytes, data, rfl, known, empty.mpr closed⟩

-- What the reads of a session bring, as they end.
def arrives (own : Nat) (d : App) (a : Action) : List UInt8 :=
  ((d.ended a).bind (Task.delivered own)).getD []

-- All that a session has been sent, as much of it as has come.
def input (env : Env) (transport : Transport) (actions : List Action) (own : Nat) : List UInt8 :=
  observed (step env) (arrives own) (initial transport) actions

-- A frame as a client makes it: its length fits, and so does that of the string in a request.
def WellFormed (f : Frame) : Prop :=
  FitsField f ∧ (IpcSession.isRequest f = true → f.type ≠ .PacketSend → ∃ s, f.payload = packString s)

/-- What has come is what was decoded, which any reader would find in it, and what is held. -/
structure Decoded (own : Nat) (d : App) (input : List UInt8) (decoded : List Frame) : Prop where
  stream : input = encodeAll decoded ++ (d.buffer own ++ (d.arriving own).flatten)
  found : ∀ later, decodeAll (encodeAll decoded ++ later) =
    (decoded ++ (decodeAll later).1, (decodeAll later).2)
  absent : d.sessions.length ≤ own → d.arriving own = []

theorem decodeAll_cut {f : Frame} {buffer : List UInt8} {size : Nat} (cut : frames.cut buffer = some (f, size))
    (later : List UInt8) :
    decodeAll (encode f ++ later) = (f :: (decodeAll later).1, (decodeAll later).2) := by
  have length : (buffer.take size).length = size := List.length_take_of_le (frames.cut_le cut)
  have front : frames.cut (encode f) = some (f, size) := by
    rw [(tryDecode_cut cut .unset).2]
    refine frames_prompt _ (buffer.drop size) f size ?_ (Nat.le_of_eq length.symm)
    rw [List.take_append_drop, cut]
  have holds := holdsFrame_of_cut front
  rw [frames_cut holds, Option.some.injEq, Prod.mk.injEq] at front
  obtain ⟨same, all⟩ := front
  have nothing : (encode f).drop (4 + lengthField (encode f)) = [] := by
    rw [all, (tryDecode_cut cut .unset).2, List.drop_eq_nil_iff]
    exact Nat.le_of_eq length
  rw [decodeAll_frame holds, nothing, same, List.nil_append]

theorem decodes_cut {own : Nat} {a : Action} {f : Frame} (decodes : d.decodes own a = some f) :
    ∃ size, d.rest = some (.decode own) ∧ frames.cut (d.buffer own) = some (f, size) := by
  cases a with
  | finish i result => cases decodes
  | run =>
    rw [App.decodes] at decodes
    split at decodes
    next resumed =>
      split at decodes
      next decoded =>
        cases decodes
        rcases tryDecode_cases decoded with ⟨_, size, cut, _⟩ | ⟨stops, _⟩
        · exact ⟨size, resumed, cut⟩
        · cases stops
      next => cases decodes
    next => cases decodes

theorem decoded_step {own : Nat} {input : List UInt8} {a : Action}
    (before : ∃ decoded, d.Decoded own input decoded) (taken : step env d a = .next t) :
    ∃ decoded, t.Decoded own (input ++ arrives own d a) decoded := by
  obtain ⟨decoded, stream, found, absent⟩ := before
  obtain ⟨bytes, absent'⟩ := step_bytes absent taken
  refine ⟨decoded ++ (d.decodes own a).toList, ?_, ?_, absent'⟩
  · rw [stream, List.append_assoc, arrives, bytes, ← List.append_assoc]
    congr 1
    exact List.flatMap_append.symm
  · cases decodes : d.decodes own a with
    | none =>
      rw [Option.toList_none, List.append_nil]
      exact found
    | some f =>
      intro later
      obtain ⟨size, -, cut⟩ := decodes_cut decodes
      have last : encodeAll (decoded ++ [f]) = encodeAll decoded ++ encode f := by
        rw [encodeAll, List.flatMap_append, List.flatMap_singleton]
        rfl
      rw [Option.toList_some, last, List.append_assoc, found, decodeAll_cut cut, List.append_assoc]
      rfl

theorem decoded_run {transport : Transport} {actions : List Action} (own : Nat)
    (ran : run (step env) (initial transport) actions = some d) :
    ∃ decoded, d.Decoded own (input env transport actions own) decoded :=
  observed_invariant (motive := fun d noted => ∃ decoded, Decoded own d noted decoded)
    (fun _ _ _ _ before taken => decoded_step before taken) actions
    ⟨[], rfl, fun _ => rfl, fun _ => rfl⟩ ran

-- What is held of a client that sends frames of its own making is frames of its making, up to the last.
theorem held_well {own : Nat} {input : List UInt8} {decoded fs : List Frame}
    (holds : d.Decoded own input decoded) (well : ∀ f ∈ fs, WellFormed f) (sent : input <+: encodeAll fs) :
    ∃ gs rest, d.buffer own = encodeAll gs ++ rest ∧ (∀ f ∈ gs, WellFormed f) ∧ Incomplete rest := by
  have fits : ∀ f ∈ fs, FitsField f := fun f member => (well f member).1
  have part : encodeAll decoded ++ d.buffer own <+: encodeAll fs := by
    refine List.IsPrefix.trans ?_ sent
    rw [holds.stream, ← List.append_assoc]
    exact List.prefix_append _ _
  obtain ⟨gs, rest, split, first, fits, incomplete⟩ := frames_of_part fits part
  have whole := decodeAll_encodeAll gs rest fits incomplete
  rw [← split, holds.found, Prod.mk.injEq] at whole
  obtain ⟨rfl, -⟩ := whole
  refine ⟨(decodeAll (d.buffer own)).1, rest, ?_, fun f member => ?_, incomplete⟩
  · have more : encodeAll (decoded ++ (decodeAll (d.buffer own)).1) =
        encodeAll decoded ++ encodeAll (decodeAll (d.buffer own)).1 := List.flatMap_append
    rw [more, List.append_assoc] at split
    exact List.append_cancel_left split
  · exact well f (first.subset (List.mem_append_right _ member))

theorem cut_encodeAll {gs : List Frame} {rest : List UInt8} (well : ∀ f ∈ gs, WellFormed f)
    (incomplete : Incomplete rest) :
    ¬ Overruns (encodeAll gs ++ rest) ∧
      ∀ f size, frames.cut (encodeAll gs ++ rest) = some (f, size) → WellFormed f := by
  cases gs with
  | nil =>
    refine ⟨incomplete.not_overruns, fun f size cut => ?_⟩
    exact absurd (holdsFrame_of_cut cut) incomplete.not_holdsFrame
  | cons g gs =>
    obtain ⟨here, -⟩ := List.forall_mem_cons.mp well
    have first : encodeAll (g :: gs) ++ rest = encode g ++ (encodeAll gs ++ rest) := by
      rw [encodeAll, List.flatMap_cons, List.append_assoc]
      rfl
    have holds := holdsFrame_encode g here.1 (encodeAll gs ++ rest)
    rw [first]
    refine ⟨fun wraps => ?_, fun f size cut => ?_⟩
    · have whole := holds.2.2
      have missing := wraps.2.2
      omega
    · rw [frames_cut holds, firstFrame_encode g here.1] at cut
      cases cut
      exact here

theorem WellFormed.string {f : Frame} (well : WellFormed f) (asks : IpcSession.isRequest f = true)
    (command : f.type ≠ .PacketSend) : ¬ Overruns f.payload := by
  obtain ⟨fits, strings⟩ := well
  obtain ⟨s, payload⟩ := strings asks command
  have short : s.length < 2 ^ 32 := by
    simp only [FitsField, payload, packString, appendU32_bytes, List.length_append] at fits
    omega
  have whole := (holdsString_packString s short).2
  rintro ⟨-, -, missing⟩
  rw [payload] at missing
  omega

/-- In every run, what is undefined in the daemon is one of the hazards. Clients that send frames of
their own making leave it but one, the write of a session that succeeds when the socket is closed
under its handler. -/
theorem hazards_all (env : Env) (inspects : Inspects env.lib) (transport : Transport) (actions : List Action)
    (d : App) (ran : run (step env) (initial transport) actions = some d) (a : Action) :
    (step env d a = .undefined ↔ a = .run ∧ d.Hazard) ∧
    ((∀ own, ∃ fs, (∀ f ∈ fs, WellFormed f) ∧ input env transport actions own <+: encodeAll fs) →
      step env d a = .undefined →
        ∃ id bytes data ready, d.rest = none ∧ d.ready = .session id (.write bytes) (.ok data) :: ready ∧
          d.socketOpen id = false) := by
  refine ⟨step_undefined inspects ran a, fun sent fault => ?_⟩
  have held : ∀ own, ¬ Overruns (d.buffer own) ∧
      ∀ f size, frames.cut (d.buffer own) = some (f, size) → WellFormed f := by
    intro own
    obtain ⟨decoded, holds⟩ := decoded_run own ran
    obtain ⟨fs, well, sent⟩ := sent own
    obtain ⟨gs, rest, buffer, well, incomplete⟩ := held_well holds well sent
    rw [buffer]
    exact cut_encodeAll well incomplete
  cases ((step_undefined inspects ran a).mp fault).2 with
  | frame id _ wraps => exact absurd wraps (held id).1
  | string id f decodes asks command wraps =>
    obtain ⟨size, -, cut⟩ := decodes_cut decodes
    exact absurd wraps (((held id).2 f size cut).string asks command)
  | write id bytes data ready idle first closed => exact ⟨id, bytes, data, ready, idle, first, closed⟩

end Daemon.App

namespace Daemon

-- A client asks whether the daemon is there and hangs up, while the write of its greeting, which has
-- ended, waits for its turn.
def hangsUp : List App.Action :=
  clientSends [] [command "PING"] ++
    [.run, .finish 3 (.error (text "End of file")), .finish 2 (.ok []), .run]

theorem hazards_all_hangsUp :
    ∃ d, run (App.step benchEnv) (App.initial benchPort) hangsUp = some d ∧
      App.step benchEnv d .run = .undefined ∧ d.socketOpen 0 = false ∧
      ∃ id bytes data ready, d.rest = none ∧ d.ready = .session id (.write bytes) (.ok data) :: ready ∧
        d.socketOpen id = false := by
  have ran : (run (App.step benchEnv) (App.initial benchPort) hangsUp).map
      (fun d => (d.rest, d.ready, d.socketOpen 0)) =
      some (none, [.session 0 (.write (IpcSession.send 0
        { type := .Hello, payload := packString (text "exn_gsd") })) (.ok [])], false) := by
    decide +kernel
  obtain ⟨d, reached, left⟩ := Option.map_eq_some_iff.mp ran
  simp only [Prod.mk.injEq] at left
  obtain ⟨idle, first, closed⟩ := left
  have inspects : App.Inspects benchEnv.lib :=
    ⟨Reference.dependsOnHeader, Reference.declaresLength, Reference.parsesHeader⟩
  have hazards := App.hazards_all benchEnv inspects benchPort hangsUp d reached .run
  have fault := hazards.1.mpr ⟨rfl, .write 0 _ [] [] idle first closed⟩
  refine ⟨d, reached, fault, closed, hazards.2 (fun own => ?_) fault⟩
  cases own with
  | zero =>
    have input : App.input benchEnv benchPort hangsUp 0 = encodeAll [command "PING"] := by decide +kernel
    refine ⟨[command "PING"], fun f member => ?_, input ▸ List.prefix_rfl⟩
    cases List.mem_singleton.mp member
    have fits : FitsField (command "PING") := by
      unfold FitsField
      decide
    exact ⟨fits, fun _ _ => ⟨text "PING", rfl⟩⟩
  | succ own =>
    have input : App.input benchEnv benchPort hangsUp (own + 1) = [] := rfl
    exact ⟨[], fun _ absent => absurd absent List.not_mem_nil, by rw [input]; exact List.nil_prefix⟩

end Daemon

end ExnGs
