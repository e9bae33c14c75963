import ExnGs.Daemon.Announcements
import ExnGs.Daemon.LinkReads
import ExnGs.Shared.PusAgreement
import ExnGs.Sim.Downlink
import ExnGs.Uplink

set_option autoImplicit false

-- The way back: from the simulator's queue over its connection to what the daemon tells its clients.
namespace ExnGs

open Proto SpacePacket Framer Pipeline Machine Epochs Daemon Sim

namespace Sim.Downlink

variable {d t : Downlink} {a : DownlinkAction}

-- What was popped, with the number of the connection then.
def marks (d : Downlink) : List (Nat × List UInt8) := d.popped.map fun tm => (tm.connection, tm.bytes)

def poppedIn (d : Downlink) (k : Nat) : List (List UInt8) := inEpoch k d.marks

def brings (d : Downlink) : DownlinkAction → List (Nat × List UInt8)
  | .pop packet => if d.connected then [(d.connections, packet)] else []
  | _ => []

/-- What a step does to the connection and to what was popped. -/
theorem step_brings (taken : d.step a = .next t) :
    t.marks = d.marks ++ d.brings a ∧
      t.connections = d.connections + if a = .accepted then 1 else 0 := by
  cases a with
  | pop packet =>
    simp only [step] at taken
    split at taken
    next => cases taken
    next =>
      split at taken
      next closed =>
        cases taken
        simp only [Bool.not_eq_true'] at closed
        exact ⟨by simp [brings, closed], rfl⟩
      next opened =>
        cases taken
        simp only [Bool.not_eq_true, Bool.not_eq_false'] at opened
        exact ⟨by simp [brings, opened, marks], rfl⟩
  | accepted =>
    simp only [step] at taken
    split at taken
    next => cases taken
    next =>
      cases taken
      exact ⟨(List.append_nil _).symm, rfl⟩
  | post | lambda | transfer | written | readError =>
    have same : t.marks = d.marks ∧ t.connections = d.connections := by
      simp only [step] at taken
      repeat' split at taken
      all_goals first
        | cases taken; exact ⟨rfl, rfl⟩
        | cases taken
    exact ⟨same.1.trans (List.append_nil _).symm, same.2⟩

theorem own_popped (d : Downlink) : d.own d.popped = (d.poppedIn d.connections).flatten := by
  rw [own, poppedIn, inEpoch, marks, List.filter_map, List.map_map, List.flatMap_def]
  rfl

/-- What is on the wire of the last connection are the first bytes of what was popped during it. -/
structure Streams (d : Downlink) : Prop where
  inv : d.Inv
  first : d.wire <+: (d.poppedIn d.connections).flatten
  ascending : Ascending d.marks

theorem streams_start : Streams {} :=
  ⟨⟨by simp [InOrder], by simp, by simp [waiting], fun _ => rfl⟩, List.nil_prefix, .nil⟩

theorem marks_past (inv : d.Inv) : ∀ x ∈ d.marks, x.1 ≤ d.connections := by
  intro x member
  obtain ⟨tm, popped, rfl⟩ := List.mem_map.mp member
  exact inv.past tm popped

theorem brings_now (d : Downlink) (a : DownlinkAction) : ∀ x ∈ d.brings a, x.1 = d.connections := by
  intro x member
  cases a with
  | pop packet =>
    rw [brings] at member
    split at member
    next => rw [List.mem_singleton.mp member]
    next => cases member
  | _ => cases member

theorem poppedIn_grows (taken : d.step a = .next t) (k : Nat) : d.poppedIn k <+: t.poppedIn k := by
  rw [poppedIn, poppedIn, (step_brings taken).1, inEpoch_append]
  exact List.prefix_append _ _

-- Nothing more is put on the wire of a connection that is down.
theorem wire_closed (inv : d.Inv) (taken : d.step a = .next t) (closed : t.connected = false) :
    t.wire = d.wire ∧ a ≠ .accepted := by
  cases a with
  | transfer i count =>
    simp only [step] at taken
    split at taken
    next => cases taken
    next left here =>
      split at taken
      next => cases taken
      next =>
        cases taken
        rw [inv.closed closed] at here
        cases here
  | accepted =>
    simp only [step] at taken
    split at taken <;> cases taken
    cases closed
  | pop | post | lambda | written | readError =>
    refine ⟨?_, by simp⟩
    simp only [step] at taken
    repeat' split at taken
    all_goals first
      | cases taken; rfl
      | cases taken

theorem wire_grows (other : a ≠ .accepted) (taken : d.step a = .next t) : d.wire <+: t.wire := by
  cases a with
  | accepted => exact absurd rfl other
  | transfer i count =>
    simp only [step] at taken
    repeat' split at taken
    all_goals first
      | cases taken; exact List.prefix_append _ _
      | cases taken
  | pop | post | lambda | written | readError =>
    simp only [step] at taken
    repeat' split at taken
    all_goals first
      | cases taken; exact List.prefix_rfl
      | cases taken

theorem Streams.step (streams : d.Streams) (alone : d.Alone a) (taken : d.step a = .next t) :
    t.Streams := by
  have inv := streams.inv.step alone taken
  obtain ⟨marks, connections⟩ := step_brings taken
  refine ⟨inv, ?_, ?_⟩
  · cases connected : t.connected with
    | true =>
      rw [← own_popped, (inv.inOrder connected).2, List.append_assoc]
      exact List.prefix_append _ _
    | false =>
      obtain ⟨wire, other⟩ := wire_closed streams.inv taken connected
      rw [connections, if_neg other, Nat.add_zero, wire]
      refine streams.first.trans ?_
      obtain ⟨more, grown⟩ := poppedIn_grows taken d.connections
      rw [← grown, List.flatten_append]
      exact List.prefix_append _ _
  · rw [Ascending, marks, List.pairwise_append]
    refine ⟨streams.ascending, List.pairwise_of_forall_mem_list fun x here y there => ?_,
      fun x before y here => ?_⟩
    · rw [brings_now d a x here, brings_now d a y there]
    · rw [brings_now d a y here]
      exact marks_past streams.inv x before

end Sim.Downlink

-- What the router reads of an answer: a TM of the OBC, of the service of one of the reports due.
theorem answer_agrees {lib : TypedPack} (documented : Documented lib) {now : Nat → UInt64}
    {tcs : List TcMessage} {packet : List UInt8} (member : packet ∈ answers lib.toCcsdsPack now tcs)
    (reading : UInt64) :
    ∃ m, decodeMeta lib.toCcsdsPack reading packet = some (.ok m) ∧ m.typ = 0 ∧ m.apid = APID_OBC ∧
      ∃ tc ∈ tcs, ∃ report ∈ reportsFor tc, m.svc = report.svc ∧ m.ssvc = report.ssvc := by
  obtain ⟨member, long⟩ := List.mem_filter.mp member
  obtain ⟨i, inside, rfl⟩ := List.mem_mapIdx.mp member
  obtain ⟨group, among, report⟩ := Numbering.mem_numbered (List.getElem_mem inside)
  obtain ⟨tc, asked, rfl⟩ := List.mem_map.mp among
  generalize (Numbering.numbered (2 ^ 14) 100 (tcs.map reportsFor))[i] = given at long report
  simp only [buildTm] at long ⊢
  split at long
  next => simp at long
  next built =>
    have ok : (buildPusCTm lib.toCcsdsPack (now (0 + i)) APID_OBC (UInt16.ofNat given.1) given.2.svc
        given.2.ssvc (UInt16.ofNat given.1) given.2.destinationId EXN_TIME_UNSYNCED
        given.2.applicationData).ok = true := by simpa using built
    obtain ⟨m, agrees⟩ := tm_agrees documented (now (0 + i)) reading (by decide) ok
    obtain ⟨typ, apid, -, svc, ssvc⟩ := agrees.fields
    rw [if_neg built]
    exact ⟨m, agrees.inspected, typ, apid, tc, asked, given.2, report, svc, ssvc⟩

/-- `fetched` is history: what the reads of the daemon have brought, with their generations. -/
structure Bench where
  rig : Rig
  line : Downlink := {}
  fetched : List (Nat × List UInt8) := []

namespace Bench

/-- A step of the rig or of the simulator's connection, or of both. `fetches` is the end of a read of the
daemon that brings some of the bytes on the wire. -/
inductive Action
  | daemon (a : App.Action)
  | fetches (i count : Nat)
  | works (a : Pipeline.Action Arrival)
  | takes
  | line (a : DownlinkAction)
  | accepts (generation : Nat)
  | refuses
  | reads (count : Nat)
  | loses

def fetchedIn (b : Bench) (g : Nat) : List UInt8 := (inEpoch g b.fetched).flatten

-- The bytes on their way to the daemon.
def coming (b : Bench) (g : Nat) : List UInt8 := b.line.wire.drop (b.fetchedIn g).length

-- The end of a read of the device link that succeeds.
def readsDevice (d : App) : App.Action → Bool
  | .finish i (.ok _) =>
    match d.outstanding[i]? with
    | some (.link (.read _)) => true
    | _ => false
  | _ => false

variable (env : Env) (lib : TypedPack) (clock now : Nat → UInt64)

def act (b : Bench) (onRig : Option Rig.Action) (onLine : Option DownlinkAction)
    (more : List (Nat × List UInt8)) : Outcome Bench :=
  match attempt (Rig.step env lib clock now) b.rig onRig, attempt Downlink.step b.line onLine with
  | .next rig, .next line => .next { rig, line, fetched := b.fetched ++ more }
  | .undefined, _ => .undefined
  | _, _ => .disabled

def step (b : Bench) : Bench.Action → Outcome Bench
  | .daemon a =>
    if readsDevice b.rig.daemon a then .disabled
    else b.act env lib clock now (some (.daemon a)) none []
  | .fetches i count =>
    match b.rig.daemon.outstanding[i]? with
    | some (.link (.read g)) =>
      let data := (b.coming g).take count
      if b.rig.accepted.getLast? = some g ∧ 0 < count ∧ count ≤ (b.coming g).length then
        b.act env lib clock now (some (.daemon (.finish i (.ok data)))) none [(g, data)]
      else .disabled
    | _ => .disabled
  | .works a => if a = .take then .disabled else b.act env lib clock now (some (.works a)) none []
  | .takes =>
    match b.rig.sim.after.contents with
    | [] => .disabled
    | packet :: _ => b.act env lib clock now (some (.works .take)) (some (.pop packet)) []
  | .line a =>
    match a with
    | .pop _ | .accepted | .readError => .disabled
    -- A lambda waits while the loop waits for room in `g_tc_q`.
    | .lambda =>
      if b.rig.sim.leaving = [] then b.act env lib clock now none (some .lambda) [] else .disabled
    | a => b.act env lib clock now none (some a) []
  | .accepts generation =>
    b.act env lib clock now (some (.accepts generation)) (some .accepted) []
  | .refuses => b.act env lib clock now (some .refuses) none []
  | .reads count => b.act env lib clock now (some (.reads count)) none []
  | .loses => b.act env lib clock now (some .loses) (some .readError) []

def started (transport : Transport) : Bench := { rig := Rig.started transport }

-- The first bytes of a connection find nothing left of earlier ones, and a lambda has its connection to
-- itself.
def Orderly (b : Bench) : Bench.Action → Prop
  | .daemon a => b.rig.daemon.Meets Device.FindsEmpty a
  | .line a => b.line.Alone a
  | _ => True

instance (b : Bench) : DecidablePred b.Orderly
  | .daemon a => inferInstanceAs (Decidable (b.rig.daemon.Meets Device.FindsEmpty a))
  | .line .lambda => inferInstanceAs (Decidable (b.line.connected = true → ∀ tm ∈ b.line.posted.head?, _))
  | .line (.pop _) | .line .post | .line (.transfer _ _) | .line (.written _) | .line .accepted
  | .line .readError => .isTrue trivial
  | .fetches _ _ | .works _ | .takes | .accepts _ | .refuses | .reads _ | .loses => .isTrue trivial

variable {env : Env} {lib : TypedPack} {clock now : Nat → UInt64} {transport : Transport} {b b' : Bench}

theorem act_next {onRig : Option Rig.Action} {onLine : Option DownlinkAction}
    {more : List (Nat × List UInt8)} (taken : b.act env lib clock now onRig onLine more = .next b') :
    ∃ rig line, attempt (Rig.step env lib clock now) b.rig onRig = .next rig ∧
      attempt Downlink.step b.line onLine = .next line ∧ b' = { rig, line, fetched := b.fetched ++ more } := by
  unfold act at taken
  split at taken
  next rig line onRig onLine =>
    cases taken
    exact ⟨rig, line, onRig, onLine, rfl⟩
  next => cases taken
  next => cases taken

/-- What each step does to the rig, to the line and to what is fetched. -/
inductive Stepped (env : Env) (lib : TypedPack) (clock now : Nat → UInt64) (b : Bench) :
    Bench.Action → Bench → Prop
  | daemon {a : App.Action} {rig : Rig} (quiet : readsDevice b.rig.daemon a = false)
      (taken : Rig.step env lib clock now b.rig (.daemon a) = .next rig) :
      Stepped env lib clock now b (.daemon a) { b with rig }
  | fetches {i count g : Nat} {rig : Rig} (reads : b.rig.daemon.outstanding[i]? = some (.link (.read g)))
      (latest : b.rig.accepted.getLast? = some g)
      (taken : Rig.step env lib clock now b.rig
        (.daemon (.finish i (.ok ((b.coming g).take count)))) = .next rig) :
      Stepped env lib clock now b (.fetches i count)
        { b with rig, fetched := b.fetched ++ [(g, (b.coming g).take count)] }
  | rig {a : Bench.Action} {r : Rig.Action} {rig : Rig} (own : ∀ x, r ≠ .daemon x)
      (other : ∀ g, r ≠ .accepts g) (taken : Rig.step env lib clock now b.rig r = .next rig) :
      Stepped env lib clock now b a { b with rig }
  | takes {packet : List UInt8} {rest : List (List UInt8)} {rig : Rig} {line : Downlink}
      (queued : b.rig.sim.after.contents = packet :: rest)
      (taken : Rig.step env lib clock now b.rig (.works .take) = .next rig)
      (popped : Downlink.step b.line (.pop packet) = .next line) :
      Stepped env lib clock now b .takes { b with rig, line }
  | line {a : DownlinkAction} {line : Downlink} (silent : b.line.brings a = []) (other : a ≠ .accepted)
      (taken : Downlink.step b.line a = .next line) :
      Stepped env lib clock now b (.line a) { b with line }
  | accepts {g : Nat} {rig : Rig} {line : Downlink}
      (taken : Rig.step env lib clock now b.rig (.accepts g) = .next rig)
      (accepted : Downlink.step b.line .accepted = .next line) :
      Stepped env lib clock now b (.accepts g) { b with rig, line }
  | loses {rig : Rig} {line : Downlink} (taken : Rig.step env lib clock now b.rig .loses = .next rig)
      (lost : Downlink.step b.line .readError = .next line) :
      Stepped env lib clock now b .loses { b with rig, line }

theorem step_stepped {a : Bench.Action} (taken : b.step env lib clock now a = .next b') :
    b.Stepped env lib clock now a b' := by
  have nothing : ∀ (rig : Rig) (line : Downlink),
      ({ rig, line, fetched := b.fetched ++ [] } : Bench) = { b with rig, line } :=
    fun _ _ => by rw [List.append_nil]
  cases a with
  | daemon a =>
    simp only [step] at taken
    split at taken
    next => cases taken
    next quiet =>
      obtain ⟨rig, line, onRig, onLine, rfl⟩ := act_next taken
      cases onLine
      rw [nothing]
      exact .daemon (Bool.eq_false_of_not_eq_true quiet) onRig
  | fetches i count =>
    simp only [step] at taken
    split at taken
    next g reads =>
      split at taken
      next may =>
        obtain ⟨rig, line, onRig, onLine, rfl⟩ := act_next taken
        cases onLine
        exact .fetches reads may.1 onRig
      next => cases taken
    next => cases taken
  | works a =>
    simp only [step] at taken
    split at taken
    next => cases taken
    next =>
      obtain ⟨rig, line, onRig, onLine, rfl⟩ := act_next taken
      cases onLine
      have worked : Rig.step env lib clock now b.rig (.works a) = .next rig := onRig
      rw [nothing]
      exact .rig (by simp) (by simp) worked
  | takes =>
    simp only [step] at taken
    split at taken
    next => cases taken
    next packet rest queued =>
      obtain ⟨rig, line, onRig, onLine, rfl⟩ := act_next taken
      rw [nothing]
      exact .takes queued onRig onLine
  | line a =>
    have ran : ∀ a, b.act env lib clock now none (some a) [] = .next b' → b.line.brings a = [] →
        a ≠ .accepted → b.Stepped env lib clock now (.line a) b' := by
      intro a taken silent other
      obtain ⟨rig, line, onRig, onLine, rfl⟩ := act_next taken
      cases onRig
      rw [nothing]
      exact .line silent other onLine
    cases a with
    | pop | accepted | readError => cases taken
    | lambda =>
      simp only [step] at taken
      split at taken
      next => exact ran _ taken rfl (by simp)
      next => cases taken
    | post => exact ran _ taken rfl (by simp)
    | transfer i count => exact ran _ taken rfl (by simp)
    | written i => exact ran _ taken rfl (by simp)
  | accepts g =>
    obtain ⟨rig, line, onRig, onLine, rfl⟩ := act_next taken
    rw [nothing]
    exact .accepts onRig onLine
  | refuses =>
    obtain ⟨rig, line, onRig, onLine, rfl⟩ := act_next taken
    cases onLine
    have refused : Rig.step env lib clock now b.rig .refuses = .next rig := onRig
    rw [nothing]
    exact .rig (by simp) (by simp) refused
  | reads count =>
    obtain ⟨rig, line, onRig, onLine, rfl⟩ := act_next taken
    cases onLine
    have read : Rig.step env lib clock now b.rig (.reads count) = .next rig := onRig
    rw [nothing]
    exact .rig (by simp) (by simp) read
  | loses =>
    obtain ⟨rig, line, onRig, onLine, rfl⟩ := act_next taken
    rw [nothing]
    exact .loses onRig onLine

theorem fetchedIn_append (b : Bench) (more : List (Nat × List UInt8)) (g : Nat) :
    fetchedIn { b with fetched := b.fetched ++ more } g = b.fetchedIn g ++ (inEpoch g more).flatten := by
  rw [fetchedIn, inEpoch_append, List.flatten_append]
  rfl

/-- Both ends are in states that they reach, and what the daemon has read on each connection are the
first bytes of what was popped during it. -/
structure Carried (env : Env) (lib : TypedPack) (clock now : Nat → UInt64) (transport : Transport)
    (b : Bench) : Prop where
  daemon : Reaches (App.step env) (App.Meets Device.FindsEmpty) (App.initial transport) b.rig.daemon
  linked : b.rig.Linked env lib clock now transport
  line : b.line.Streams
  count : b.line.connections = b.rig.accepted.length
  popped : (b.line.marks.map Prod.snd).Sublist b.rig.sim.taken
  fetches : b.rig.daemon.Fetches b.fetchedIn
  latest : ∀ g, b.rig.accepted.getLast? = some g → b.fetchedIn g <+: b.line.wire
  each : ∀ k g, b.rig.accepted[k]? = some g → b.fetchedIn g <+: (b.line.poppedIn (k + 1)).flatten
  others : ∀ g, g ∉ b.rig.accepted → b.fetchedIn g = []

theorem carried_started (env : Env) (lib : TypedPack) (clock now : Nat → UInt64) (transport : Transport) :
    (started transport).Carried env lib clock now transport where
  daemon := .refl
  linked := Rig.linked_started env lib clock now transport
  line := Downlink.streams_start
  count := rfl
  popped := .slnil
  fetches := App.fetches_initial transport
  latest := fun _ none => by cases none
  each := fun _ _ none => by cases none
  others := fun _ _ => rfl

theorem fetches_quiet {d : App} {a : App.Action} (quiet : readsDevice d a = false) (g : Nat) :
    d.fetches g a = [] := by
  cases a with
  | run => rfl
  | finish i result =>
    rw [App.fetches]
    cases here : d.outstanding[i]? with
    | none => rfl
    | some op =>
      cases result with
      | error message => cases op with
        | link op => cases op <;> rfl
        | _ => rfl
      | ok data =>
        cases op with
        | link op =>
          cases op with
          | read g => simp [readsDevice, here] at quiet
          | _ => rfl
        | _ => rfl

theorem fetches_read {d : App} {i g : Nat} (reads : d.outstanding[i]? = some (.link (.read g)))
    (data : List UInt8) (g' : Nat) :
    d.fetches g' (.finish i (.ok data)) = (inEpoch g' [(g, data)]).flatten := by
  rw [App.fetches, reads, Option.bind_some, App.handlerOf, Task.reading]
  by_cases same : g = g' <;> simp [inEpoch, same]

-- The daemon takes a step, and what its reads have brought grows by what this one brings.
theorem Carried.daemon_steps {a : App.Action} {daemon : App} {more : List (Nat × List UInt8)}
    (carried : b.Carried env lib clock now transport) (met : b.rig.daemon.Meets Device.FindsEmpty a)
    (taken : App.step env b.rig.daemon a = .next daemon)
    (brought : ∀ g, b.rig.daemon.fetches g a = (inEpoch g more).flatten) :
    daemon.Fetches (fetchedIn { b with fetched := b.fetched ++ more }) ∧
      Reaches (App.step env) (App.Meets Device.FindsEmpty) (App.initial transport) daemon := by
  refine ⟨?_, carried.daemon.tail met taken⟩
  have fetches := App.fetches_step carried.fetches taken
  have same : (fun g => b.fetchedIn g ++ b.rig.daemon.fetches g a) =
      fetchedIn { b with fetched := b.fetched ++ more } :=
    funext fun g => by rw [fetchedIn_append, brought]
  rwa [same] at fetches

-- The rig takes a step, and the daemon stays as it is.
theorem Carried.with_rig {rig : Rig} (carried : b.Carried env lib clock now transport)
    (linked : rig.Linked env lib clock now transport) (daemon : rig.daemon = b.rig.daemon)
    (accepted : rig.accepted = b.rig.accepted) (taken : b.rig.sim.taken <+: rig.sim.taken) :
    Carried env lib clock now transport { b with rig } where
  daemon := daemon ▸ carried.daemon
  linked := linked
  line := carried.line
  count := accepted ▸ carried.count
  popped := carried.popped.trans taken.sublist
  fetches := by
    change rig.daemon.Fetches _
    rw [daemon]
    exact carried.fetches
  latest := fun g last => carried.latest g (accepted ▸ last)
  each := fun k g here => carried.each k g (accepted ▸ here)
  others := fun g absent => carried.others g (accepted ▸ absent)

-- The line takes a step within a connection.
theorem Carried.with_line {a : DownlinkAction} {line : Downlink}
    (carried : b.Carried env lib clock now transport) (alone : b.line.Alone a) (other : a ≠ .accepted)
    (taken : b.line.step a = .next line)
    (popped : ((b.line.marks ++ b.line.brings a).map Prod.snd).Sublist b.rig.sim.taken) :
    Carried env lib clock now transport { b with line } where
  daemon := carried.daemon
  linked := carried.linked
  line := carried.line.step alone taken
  count := by
    change line.connections = _
    rw [(Downlink.step_brings taken).2, if_neg other]
    exact carried.count
  popped := by
    change (line.marks.map Prod.snd).Sublist _
    rw [(Downlink.step_brings taken).1]
    exact popped
  fetches := carried.fetches
  latest := fun g last => (carried.latest g last).trans (Downlink.wire_grows other taken)
  each := by
    intro k g here
    obtain ⟨more, grown⟩ := Downlink.poppedIn_grows taken (k + 1)
    refine (carried.each k g here).trans ?_
    rw [← grown, List.flatten_append]
    exact List.prefix_append _ _
  others := carried.others

theorem Carried.accepts {g : Nat} {rig : Rig} {line : Downlink}
    (carried : b.Carried env lib clock now transport)
    (taken : Rig.step env lib clock now b.rig (.accepts g) = .next rig)
    (accepted : Downlink.step b.line .accepted = .next line) :
    Carried env lib clock now transport { b with rig, line } := by
  have linked := carried.linked.step taken
  obtain ⟨marks, connections⟩ := Downlink.step_brings accepted
  cases Rig.step_stepped taken with
  | @accepts _ sim _ later given =>
    have absent : g ∉ b.rig.accepted := fun member => Nat.lt_irrefl g (later g member)
    have fresh := carried.others g absent
    have sent : b.rig.sim.taken <+: sim.taken := Line.taken_grows given
    have alone : b.line.Alone .accepted := trivial
    have marks : line.marks = b.line.marks := marks.trans (List.append_nil _)
    refine ⟨carried.daemon, linked, carried.line.step alone accepted, ?_, ?_, carried.fetches, ?_, ?_, ?_⟩
    · rw [connections, if_pos rfl, carried.count, List.length_append]
      rfl
    · rw [marks]
      exact carried.popped.trans sent.sublist
    · intro g' last
      rw [List.getLast?_concat, Option.some.injEq] at last
      change b.fetchedIn g' <+: _
      rw [← last, fresh]
      exact List.nil_prefix
    · intro k g' here
      have same : line.poppedIn (k + 1) = b.line.poppedIn (k + 1) := by
        rw [Downlink.poppedIn, marks, Downlink.poppedIn]
      rw [same]
      change b.fetchedIn g' <+: _
      rw [List.getElem?_append] at here
      split at here
      next => exact carried.each k g' here
      next =>
        obtain rfl : g = g' := by
          obtain ⟨inside, what⟩ := List.getElem?_eq_some_iff.mp here
          rw [List.getElem_singleton] at what
          exact what
        rw [fresh]
        exact List.nil_prefix
    · intro g' absent
      exact carried.others g' fun member => absent (List.mem_append_left _ member)

-- A connection that the simulator accepted is the last one at most once.
theorem last_of_latest {generations : List Nat} (ascending : generations.Pairwise (· < ·)) {k g : Nat}
    (here : generations[k]? = some g) (latest : generations.getLast? = some g) : k + 1 = generations.length := by
  obtain ⟨earlier, rfl⟩ := List.getLast?_eq_some_iff.mp latest
  rw [List.getElem?_append] at here
  split at here
  next inside =>
    have before := (List.pairwise_append.mp ascending).2.2 g (List.mem_of_getElem? here) g
      (List.mem_singleton_self g)
    omega
  next outside =>
    have one := (List.getElem?_eq_some_iff.mp here).1
    simp only [List.length_append, List.length_singleton] at one ⊢
    omega

theorem Carried.fetched {i count g : Nat} {rig : Rig} (carried : b.Carried env lib clock now transport)
    (reads : b.rig.daemon.outstanding[i]? = some (.link (.read g)))
    (latest : b.rig.accepted.getLast? = some g)
    (taken : Rig.step env lib clock now b.rig
      (.daemon (.finish i (.ok ((b.coming g).take count)))) = .next rig) :
    Carried env lib clock now transport
      { b with rig, fetched := b.fetched ++ [(g, (b.coming g).take count)] } := by
  have linked := carried.linked.step taken
  generalize next : (b.coming g).take count = data at taken linked ⊢
  cases Rig.step_stepped taken with
  | @daemon _ daemon stepped =>
    have met : b.rig.daemon.Meets Device.FindsEmpty (.finish i (.ok data)) := trivial
    obtain ⟨fetches, reached⟩ := carried.daemon_steps met stepped fun g' => fetches_read reads data g'
    have grown : ∀ g', fetchedIn
        { rig := { b.rig with daemon }, line := b.line, fetched := b.fetched ++ [(g, data)] } g' =
        b.fetchedIn g' ++ (inEpoch g' [(g, data)]).flatten := b.fetchedIn_append [(g, data)]
    have mine : (inEpoch g [(g, data)]).flatten = data := by simp [inEpoch]
    have other : ∀ g', g ≠ g' → (inEpoch g' [(g, data)]).flatten = [] := by
      intro g' different
      simp [inEpoch, different]
    -- What comes in addition is the next of what is on the wire.
    have wire : b.fetchedIn g ++ data <+: b.line.wire := by
      obtain ⟨rest, split⟩ := carried.latest g latest
      rw [← next, coming, ← split, List.drop_left]
      exact (List.prefix_append_right_inj _).mpr (List.take_prefix count rest)
    refine ⟨reached, linked, carried.line, carried.count, carried.popped, fetches, ?_, ?_, ?_⟩
    · intro g' last
      obtain rfl : g = g' := Option.some.inj (latest.symm.trans last)
      rw [grown, mine]
      exact wire
    · intro k g' here
      rw [grown]
      by_cases same : g = g'
      · subst same
        have last := last_of_latest carried.linked.ascending here latest
        rw [mine, last, ← carried.count]
        exact wire.trans carried.line.first
      · rw [other g' same, List.append_nil]
        exact carried.each k g' here
    · intro g' absent
      have different : g ≠ g' := by
        rintro rfl
        exact absent (List.mem_of_getLast? latest)
      rw [grown, other g' different, List.append_nil]
      exact carried.others g' absent

theorem Carried.step {a : Bench.Action} (carried : b.Carried env lib clock now transport)
    (orderly : b.Orderly a) (taken : b.step env lib clock now a = .next b') :
    b'.Carried env lib clock now transport := by
  cases step_stepped taken with
  | @daemon a rig quiet stepped =>
    have linked := carried.linked.step stepped
    cases Rig.step_stepped stepped with
    | @daemon _ daemon ran =>
      have brought : ∀ g, b.rig.daemon.fetches g a = (inEpoch g ([] : List (Nat × List UInt8))).flatten :=
        fetches_quiet quiet
      obtain ⟨fetches, reached⟩ := carried.daemon_steps orderly ran brought
      rw [List.append_nil] at fetches
      exact ⟨reached, linked, carried.line, carried.count, carried.popped, fetches, carried.latest,
        carried.each, carried.others⟩
  | fetches reads latest stepped => exact carried.fetched reads latest stepped
  | @rig _ r rig own other stepped =>
    have linked := carried.linked.step stepped
    cases Rig.step_stepped stepped with
    | daemon => exact absurd rfl (own _)
    | accepts => exact absurd rfl (other _)
    | works _ worked => exact carried.with_rig linked rfl rfl (Line.taken_grows worked)
    | refuses given => exact carried.with_rig linked rfl rfl (Line.taken_grows given)
    | reads _ _ given => exact carried.with_rig linked rfl rfl (Line.taken_grows given)
    | loses given => exact carried.with_rig linked rfl rfl (Line.taken_grows given)
  | @takes packet rest rig line queued stepped popped =>
    have linked := carried.linked.step stepped
    cases Rig.step_stepped stepped with
    | @works _ sim inner worked =>
      have sent := Line.step_take queued worked
      have with_rig := carried.with_rig linked rfl rfl (Line.taken_grows worked)
      have alone : b.line.Alone (.pop packet) := trivial
      refine with_rig.with_line alone (by simp) popped ?_
      change ((b.line.marks ++ b.line.brings (.pop packet)).map Prod.snd).Sublist sim.taken
      rw [List.map_append, sent]
      refine carried.popped.append ?_
      rw [Downlink.brings]
      split
      next => exact List.Sublist.refl [packet]
      next => exact List.nil_sublist [packet]
  | line silent other stepped =>
    refine carried.with_line orderly other stepped ?_
    rw [silent, List.append_nil]
    exact carried.popped
  | accepts stepped accepted => exact carried.accepts stepped accepted
  | @loses rig line stepped lost =>
    have linked := carried.linked.step stepped
    cases Rig.step_stepped stepped with
    | loses given =>
      have with_rig := carried.with_rig linked rfl rfl (Line.taken_grows given)
      have alone : b.line.Alone .readError := trivial
      refine with_rig.with_line alone (by simp) lost ?_
      change ((b.line.marks ++ []).map Prod.snd).Sublist _
      rw [List.append_nil]
      exact with_rig.popped

theorem framedIn_inEpoch (d : App) (g : Nat) : d.framedIn g = inEpoch g d.marks := by
  rw [App.framedIn, App.marks]
  induction d.history with
  | nil => rfl
  | cons event events ih =>
    rw [List.flatMap_cons, List.flatMap_cons, inEpoch_append, ih]
    cases event with
    | framed g' packet =>
      by_cases same : g' = g <;> simp [Event.framedIn, Event.marked, inEpoch, same]
    | _ => rfl

theorem framedPackets_marks (d : App) : d.framedPackets = d.marks.map Prod.snd := by
  rw [App.framedPackets, App.marks, List.map_flatMap]
  exact congrArg (fun observe => d.history.flatMap observe) (funext fun event => by cases event <;> rfl)

theorem flatMap_sublist {α β γ : Type} {f : α → List γ} {g : β → List γ} {xs : List α} {ys : List β}
    (each : List.Forall₂ (fun x y => (f x).Sublist (g y)) xs ys) :
    (xs.flatMap f).Sublist (ys.flatMap g) := by
  induction each with
  | nil => exact .slnil
  | cons first _ ih =>
    rw [List.flatMap_cons, List.flatMap_cons]
    exact first.append ih

theorem announces_of_mem {frames : List Frame} {packets : List (List UInt8)}
    (announced : List.Forall₂ (App.Announces env) frames packets) {f : Frame} (member : f ∈ frames) :
    ∃ packet ∈ packets, App.Announces env f packet := by
  induction announced with
  | nil => cases member
  | cons first _ ih =>
    rcases List.mem_cons.mp member with rfl | later
    · exact ⟨_, List.mem_cons_self, first⟩
    · obtain ⟨packet, among, announces⟩ := ih later
      exact ⟨packet, List.mem_cons_of_mem _ among, announces⟩

/-- Nothing of the present connection is on its way. -/
structure Settled (b : Bench) (g : Nat) : Prop where
  latest : b.rig.accepted.getLast? = some g
  current : b.rig.daemon.link.generation = g
  connected : b.line.connected = true
  waiting : b.line.waiting = []
  writes : b.line.writes.flatten = []
  coming : b.coming g = []
  reading : b.rig.daemon.reading g = []

instance (b : Bench) (g : Nat) : Decidable (b.Settled g) :=
  decidable_of_iff (b.rig.accepted.getLast? = some g ∧ b.rig.daemon.link.generation = g ∧
      b.line.connected = true ∧ b.line.waiting = [] ∧ b.line.writes.flatten = [] ∧
      b.coming g = [] ∧ b.rig.daemon.reading g = [])
    ⟨fun ⟨latest, current, connected, waiting, writes, coming, reading⟩ =>
      ⟨latest, current, connected, waiting, writes, coming, reading⟩,
    fun s => ⟨s.latest, s.current, s.connected, s.waiting, s.writes, s.coming, s.reading⟩⟩

section

variable (same : env.lib = lib.toCcsdsPack) (header : DependsOnHeader lib.declaredPacketSize)
  (length : DeclaresLength lib.declaredPacketSize)

include same header length

-- What the daemon has framed of packets that come to it one after the other are those that have come whole.
theorem Carried.framed (carried : b.Carried env lib clock now transport) {g : Nat}
    {packets : List (List UInt8)} (declared : ∀ packet ∈ packets, Declared env.lib.declaredPacketSize packet)
    (part : (b.rig.daemon.chunks g).flatten <+: packets.flatten) :
    b.rig.daemon.framedIn g = whole (b.rig.daemon.chunks g).flatten.length packets := by
  have header' : DependsOnHeader env.lib.declaredPacketSize := same ▸ header
  have length' : DeclaresLength env.lib.declaredPacketSize := same ▸ length
  have frames := App.device_invariant (fun _ _ frames step => Device.FramesOwn.step frames step)
    (App.framesOwn_initial header' transport) carried.daemon
  obtain ⟨_, -, pushed⟩ := pushAll_stream header' length' declared (b.rig.daemon.chunks g) part
  rw [(App.receivesOwn_of_framesOwn header' frames g).1, pushed]

theorem Carried.framed_none (carried : b.Carried env lib clock now transport) {g : Nat}
    (absent : g ∉ b.rig.accepted) : b.rig.daemon.framedIn g = [] := by
  have nothing := carried.fetches.past g
  rw [carried.others g absent, List.prefix_nil] at nothing
  have part : (b.rig.daemon.chunks g).flatten <+: ([] : List (List UInt8)).flatten := by
    rw [nothing]
    exact List.nil_prefix
  exact carried.framed same header length (fun _ member => by cases member) part

theorem Carried.sent (carried : b.Carried env lib clock now transport) :
    b.rig.sim.taken <+: answers lib.toCcsdsPack now ((parsing lib clock).run 0 b.rig.arrived).2 := by
  have tracks := Simulator.reached_tracks carried.linked.sim
  have due := @Simulator.made_answers _ _ now header _ tracks.accepted
  rw [requests, carried.linked.arrived_framed same header length] at due
  exact due ▸ tracks.taken_first

variable (documented : Documented lib)

include documented

-- What was popped are packets that declare their lengths.
theorem Carried.declared (carried : b.Carried env lib clock now transport) (k : Nat) :
    ∀ packet ∈ b.line.poppedIn k, Declared env.lib.declaredPacketSize packet := by
  intro packet member
  have popped : packet ∈ b.line.marks.map Prod.snd := (List.filter_sublist.map Prod.snd).subset member
  have answer := (carried.sent same header length).subset (carried.popped.subset popped)
  obtain ⟨m, decoded, -⟩ := answer_agrees documented answer 0
  rw [same]
  exact decodeMeta_accepts decoded

theorem Carried.framed_first (carried : b.Carried env lib clock now transport) {k g : Nat}
    (here : b.rig.accepted[k]? = some g) : b.rig.daemon.framedIn g <+: b.line.poppedIn (k + 1) := by
  have part := (carried.fetches.past g).trans (carried.each k g here)
  rw [carried.framed same header length (carried.declared same header length documented (k + 1)) part]
  exact whole_first _ _

-- Connection after connection, what was framed was popped.
theorem Carried.framed_taken (carried : b.Carried env lib clock now transport) :
    b.rig.daemon.framedPackets.Sublist b.rig.sim.taken := by
  have start : (App.initial transport).device.Marked := ⟨List.Pairwise.nil, fun _ member => by cases member⟩
  have marked : b.rig.daemon.device.Marked :=
    App.device_invariant (fun _ _ marked step => Device.Marked.step marked step) start carried.daemon
  have marks : b.rig.daemon.device.marks = b.rig.daemon.marks :=
    b.rig.daemon.observed_device fun event other => by cases event <;> first | rfl | cases other
  have all : ∀ x ∈ b.rig.daemon.marks, x.1 ∈ b.rig.accepted := by
    intro x member
    by_contra absent
    have none := carried.framed_none same header length absent
    rw [framedIn_inEpoch, inEpoch, List.map_eq_nil_iff, List.filter_eq_nil_iff] at none
    exact none x member (decide_eq_true rfl)
  have each : List.Forall₂ (fun g k => (b.rig.daemon.framedIn g).Sublist (b.line.poppedIn k)) b.rig.accepted
      (List.range' 1 b.rig.accepted.length) := by
    rw [List.forall₂_iff_get]
    refine ⟨List.length_range'.symm, fun i inside _ => ?_⟩
    have here : b.rig.accepted[i]? = some b.rig.accepted[i] := List.getElem?_eq_getElem inside
    have first := carried.framed_first same header length documented here
    simpa [Nat.add_comm 1] using first.sublist
  have framed : b.rig.daemon.framedPackets = b.rig.accepted.flatMap b.rig.daemon.framedIn := by
    rw [framedPackets_marks, ← flatMap_inEpoch_all (marks ▸ marked.ascending) carried.linked.ascending all]
    exact congrArg (fun f => b.rig.accepted.flatMap f) (funext fun g => (framedIn_inEpoch _ g).symm)
  rw [framed]
  refine (flatMap_sublist each).trans (List.Sublist.trans ?_ carried.popped)
  exact flatMap_inEpoch_sublist carried.line.ascending List.pairwise_lt_range'

-- With nothing on its way, all that was popped during the present connection has been framed.
theorem Carried.framed_all (carried : b.Carried env lib clock now transport) {g : Nat} (settled : b.Settled g) :
    b.rig.daemon.framedIn g = b.line.poppedIn b.line.connections := by
  have fetched : b.fetchedIn g = b.line.wire := by
    obtain ⟨rest, split⟩ := carried.latest g settled.latest
    have nothing := settled.coming
    rw [coming, ← split, List.drop_left] at nothing
    rw [← split, nothing, List.append_nil]
  have heard := carried.fetches.current
  rw [settled.current, settled.reading, List.flatten_nil, List.append_nil, fetched] at heard
  have order := (carried.line.inv.inOrder settled.connected).2
  rw [Downlink.own_popped, settled.writes, settled.waiting, List.append_nil] at order
  have all : (b.rig.daemon.chunks g).flatten = (b.line.poppedIn b.line.connections).flatten := by
    rw [heard, order]
    exact (List.append_nil _).symm
  have declared := carried.declared same header length documented b.line.connections
  rw [carried.framed same header length declared (all ▸ List.prefix_rfl), all, whole_all]

end

end Bench

-- The two reports come to the daemon while the simulator still writes: of the first, ten bytes before the
-- others.
def hkReturned : List Bench.Action :=
  (clientSends [.finish 1 (.ok []), .run, .finish 1 (.ok []), .run]
      [{ type := .PacketSend, payload := systemHkTc }] ++ [App.Action.run]).map .daemon ++
    [.accepts 1, .reads systemHkTc.length, .works .send, .works .pass, .works .finish,
      .takes, .line .post, .line .lambda, .line (.transfer 0 25), .fetches 0 10, .daemon .run,
      .daemon .run, .fetches 4 15, .daemon .run, .line (.written 0),
      .works .finish, .takes, .line .post, .line .lambda, .line (.transfer 0 105), .line (.written 0),
      .fetches 4 105, .daemon .run, .daemon .run]

end ExnGs
