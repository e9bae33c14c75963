import ExnGs.Daemon.LinkLoop

set_option autoImplicit false

-- What becomes of the packets that enter the queue of the device link.
namespace ExnGs.Daemon

open EventLoop Machine

inductive WriteEnd
  | completed (generation : Nat) (packet : TxPacket)
  | discarded (generation : Nat) (packet : TxPacket)
  deriving DecidableEq, Repr

namespace SerialLink

-- What the present generation loses as it ends.
def discards (link : SerialLink) : List WriteEnd := link.txQueue.map (.discarded link.generation)

def ends (link : SerialLink) : LinkOp → Completion → List WriteEnd
  | .write generation packet, .ok _ => [.completed generation packet]
  | _, .ok _ => []
  | op, .error _ => if op.generation = link.generation then link.discards else []

end SerialLink

namespace LinkLoop

-- Writes end as their handlers are told so, and a generation by a stop or an error of its own.
def writeEnds (l : LinkLoop) : EventLoop.Action Completion LinkCall → List WriteEnd
  | .call .stop => l.link.discards
  | .handler i =>
    match l.pending[i]? with
    | some { op, result := some result } => l.link.ends op result
    | _ => []
  | _ => []

end LinkLoop

variable (g : Nat)

def LinkEvent.appended : LinkEvent → Option TxPacket
  | .queued generation packet => if generation = g then some packet else none
  | _ => none

def LinkOp.written : LinkOp → Option TxPacket
  | .write generation packet => if generation = g then some packet else none
  | _ => none

def WriteEnd.completes : WriteEnd → Option TxPacket
  | .completed generation packet => if generation = g then some packet else none
  | .discarded _ _ => none

def WriteEnd.discards : WriteEnd → Option TxPacket
  | .discarded generation packet => if generation = g then some packet else none
  | .completed _ _ => none

-- The packets of a generation: appended to the queue, and passed to `async_write`.
def appended (history : List (Nat × LinkEvent)) : List TxPacket :=
  history.filterMap fun entry => entry.2.appended g

def written (history : List (Nat × LinkEvent)) : List TxPacket :=
  (history.flatMap fun entry => entry.2.started).filterMap (LinkOp.written g)

def inFlight (ops : List LinkOp) : List TxPacket := ops.filterMap (LinkOp.written g)

def completed (ends : List WriteEnd) : List TxPacket := ends.filterMap (WriteEnd.completes g)

def discarded (ends : List WriteEnd) : List TxPacket := ends.filterMap (WriteEnd.discards g)

-- What is in the queue, if the generation is the present one.
def queued (link : SerialLink) : List TxPacket := if link.generation = g then link.txQueue else []

/-- The packets of a generation are written in the order they were appended in, one after the other,
and what was appended is completed, discarded as the generation ended, or still queued. -/
structure InOrder (l : LinkLoop) (ends : List WriteEnd) : Prop where
  in_order : written g l.state.history <+: appended g l.state.history
  completes : completed g ends <+: written g l.state.history
  one_at_a_time : (written g l.state.history).length ≤ (completed g ends).length + 1
  in_flight : ∃ last, written g l.state.history = completed g ends ++ last ∧
    (inFlight g l.ops = last ∨ inFlight g l.ops = [])
  accounted : ∃ done, done <+: completed g ends ∧
    appended g l.state.history = done ++ discarded g ends ++ queued g l.link
  ended : discarded g ends ≠ [] → l.link.generation ≠ g ∨ l.link.opened = false

-- The packets of a generation, by what has become of them.
structure Packets where
  appended : List TxPacket := []
  written : List TxPacket := []
  completed : List TxPacket := []
  discarded : List TxPacket := []
  inFlight : List TxPacket := []

/-- Where a generation is: still to come or being connected, open, or ended. -/
inductive Fate (link : SerialLink) (p : Packets) : Prop
  | fresh (coming : link.generation < g ∨
        link.generation = g ∧ link.connecting = true ∧ link.opened = false)
      (none : p = {})
  | opened (current : link.generation = g) (opened : link.opened = true)
      (appended : p.appended = p.completed ++ link.txQueue)
      (written : p.written = p.completed ++ link.txQueue.head?.toList) (discarded : p.discarded = [])
      (inFlight : p.inFlight = link.txQueue.head?.toList)
  | ended (done : List TxPacket)
      (gone : g < link.generation ∨
        link.generation = g ∧ link.opened = false ∧ link.connecting = false)
      (appended : p.appended = done ++ p.discarded)
      (written : p.written = done ++ p.discarded.head?.toList)
      (last : p.completed = done ∧ (p.inFlight = p.discarded.head?.toList ∨ p.inFlight = []) ∨
        p.completed = p.written ∧ p.inFlight = [])

theorem SerialLink.Sound.empty {link : SerialLink} {ops : List LinkOp} (sound : link.Sound ops)
    (closed : link.opened = false) : link.txQueue = [] := by
  cases sound.phase with
  | opened opened =>
    rw [closed] at opened
    contradiction
  | connecting _ _ empty => exact empty
  | closed _ _ empty => exact empty

section Fates

variable {g} {link : SerialLink} {p : Packets}

theorem Fate.of_eq {q : Packets} (fate : Fate g link p) (same : p = q) : Fate g link q := same ▸ fate

theorem length_head? (packets : List TxPacket) : packets.head?.toList.length ≤ 1 := by
  cases packets <;> simp

theorem Fate.one_inFlight (fate : Fate g link p) : p.inFlight.length ≤ 1 := by
  cases fate with
  | fresh _ none => simp [none]
  | opened _ _ _ _ _ one => exact one ▸ length_head? _
  | ended done _ _ _ last =>
    rcases last with ⟨-, one | none⟩ | ⟨-, none⟩
    · exact one ▸ length_head? _
    · simp [none]
    · simp [none]

-- A generation of which there is nothing.
theorem Fate.none_ended (gone : g < link.generation ∨
      link.generation = g ∧ link.opened = false ∧ link.connecting = false) : Fate g link {} :=
  .ended [] gone rfl rfl (.inl ⟨rfl, .inr rfl⟩)

-- The present generation ends; what it had queued is discarded.
theorem Fate.finish (fate : Fate g link p) (link' : SerialLink) (current : link.generation = g)
    (empty : link.opened = false → link.txQueue = [])
    (gone : g < link'.generation ∨
      link'.generation = g ∧ link'.opened = false ∧ link'.connecting = false) :
    Fate g link' { p with discarded := p.discarded ++ link.txQueue } := by
  cases fate with
  | fresh coming none =>
    have shut : link.opened = false := by
      rcases coming with later | ⟨-, -, shut⟩
      · omega
      · exact shut
    rw [none, empty shut]
    exact .none_ended gone
  | opened _ opened appended written discarded inFlight =>
    rw [discarded]
    exact .ended p.completed gone appended written (.inl ⟨rfl, .inl inFlight⟩)
  | ended done before appended written last =>
    have shut : link.opened = false := by
      rcases before with later | ⟨-, shut, -⟩
      · omega
      · exact shut
    rw [empty shut, List.append_nil]
    exact .ended done gone appended written last

-- The other generations stay where they are.
theorem Fate.elsewhere (fate : Fate g link p) (link' : SerialLink) (other : link.generation ≠ g)
    (differs : link'.generation ≠ g)
    (on : link.generation ≤ link'.generation) (by_one : link'.generation ≤ link.generation + 1) :
    Fate g link' p := by
  cases fate with
  | fresh coming none =>
    refine .fresh (.inl ?_) none
    rcases coming with later | ⟨here, -⟩
    · omega
    · exact absurd here other
  | opened current => exact absurd current other
  | ended done gone appended written last =>
    refine .ended done (.inl ?_) appended written last
    rcases gone with earlier | ⟨here, -⟩
    · omega
    · exact absurd here other

-- A handler that is told of no success takes the write's packet out of those in flight.
theorem Fate.lost (fate : Fate g link p) (ended : link.generation = g → link.opened = false) :
    Fate g link { p with inFlight := [] } := by
  cases fate with
  | fresh coming none => exact .fresh coming (by rw [none])
  | opened current opened =>
    rw [ended current] at opened
    contradiction
  | ended done gone appended written last =>
    refine .ended done gone appended written ?_
    rcases last with ⟨completed, -⟩ | ⟨completed, -⟩
    · exact .inl ⟨completed, .inr rfl⟩
    · exact .inr ⟨completed, rfl⟩

-- One that is told of a success has completed it, also where the generation has ended.
theorem Fate.delivered (fate : Fate g link p) (ended : link.generation = g → link.opened = false)
    {packet : TxPacket} (flying : p.inFlight = [packet]) :
    Fate g link { p with completed := p.completed ++ [packet], inFlight := [] } := by
  cases fate with
  | fresh coming none =>
    rw [none] at flying
    cases flying
  | opened current opened =>
    rw [ended current] at opened
    contradiction
  | ended done gone appended written last =>
    refine .ended done gone appended written (.inr ⟨?_, rfl⟩)
    rcases last with ⟨completed, one | none⟩ | ⟨-, none⟩
    · rw [flying] at one
      rw [written, completed, ← one]
    · rw [flying] at none
      cases none
    · rw [flying] at none
      cases none

-- A generation begins, and the one before it ends if it has not ended yet.
theorem Fate.renewed (fate : Fate g link p) (link' : SerialLink) (empty : link.opened = false → link.txQueue = [])
    (next : link'.generation = link.generation + 1) (new : Fate link'.generation link' {}) :
    Fate g link' { p with
      discarded := p.discarded ++ if link.generation = g then link.txQueue else [] } := by
  by_cases current : link.generation = g
  · rw [if_pos current]
    exact fate.finish link' current empty (.inl (by omega))
  · rw [if_neg current, List.append_nil]
    by_cases begins : link'.generation = g
    · cases fate with
      | fresh coming none =>
        rw [none]
        exact begins ▸ new
      | opened here => exact absurd here current
      | ended done gone =>
        rcases gone with earlier | ⟨here, -⟩
        · omega
        · exact absurd here current
    · exact fate.elsewhere link' current begins (by omega) (by omega)

theorem Fate.started {turn : SerialLink × List LinkEvent} (fate : Fate g link p)
    (empty : link.opened = false → link.txQueue = []) (started : link.Started turn) :
    Fate g turn.1 p := by
  have renewed : ∀ link' : SerialLink, link.opened = false →
      link'.generation = link.generation + 1 → Fate link'.generation link' {} → Fate g link' p := by
    intro link' closed next new
    have fate := fate.renewed link' empty next new
    rw [empty closed, ite_self, List.append_nil] at fate
    exact fate
  cases started with
  | busy => exact fate
  | resolving closed tcp detail => exact renewed _ closed rfl (.fresh (.inr ⟨rfl, rfl, closed⟩) rfl)
  | failed closed serial err => exact renewed _ closed rfl (.none_ended (.inr ⟨rfl, closed, rfl⟩))
  | opened closed serial =>
    refine renewed _ closed rfl (.opened rfl rfl ?_ ?_ rfl ?_) <;> simp [empty closed]

theorem Fate.while_open (fate : Fate g link p) (current : link.generation = g)
    (opened : link.opened = true) :
    p.appended = p.completed ++ link.txQueue ∧
      p.written = p.completed ++ link.txQueue.head?.toList ∧ p.discarded = [] ∧
      p.inFlight = link.txQueue.head?.toList := by
  cases fate with
  | fresh coming none =>
    rcases coming with later | ⟨-, -, shut⟩
    · omega
    · rw [opened] at shut
      contradiction
  | opened _ _ appended written discarded inFlight => exact ⟨appended, written, discarded, inFlight⟩
  | ended done gone =>
    rcases gone with earlier | ⟨-, shut, -⟩
    · omega
    · rw [opened] at shut
      contradiction

theorem Fate.appends (fate : Fate g link p) (current : link.generation = g) (opened : link.opened = true)
    (busy : link.txQueue ≠ []) (packet : TxPacket) :
    Fate g { link with txQueue := link.txQueue ++ [packet] }
      { p with appended := p.appended ++ [packet] } := by
  obtain ⟨appended, written, discarded, inFlight⟩ := fate.while_open current opened
  have same : (link.txQueue ++ [packet]).head? = link.txQueue.head? :=
    List.head?_append_of_ne_nil _ busy
  refine .opened current opened ?_ ?_ discarded ?_
  · simp [appended]
  · simp [written, same]
  · simp [inFlight, same]

theorem Fate.begins (fate : Fate g link p) (current : link.generation = g) (opened : link.opened = true)
    (idle : link.txQueue = []) (packet : TxPacket) :
    Fate g { link with txQueue := [packet] }
      { p with
        appended := p.appended ++ [packet]
        written := p.written ++ [packet]
        inFlight := p.inFlight ++ [packet] } := by
  obtain ⟨appended, written, discarded, inFlight⟩ := fate.while_open current opened
  rw [idle] at appended written inFlight
  refine .opened current opened ?_ ?_ discarded ?_
  · simp [appended]
  · simp [written]
  · simp [inFlight]

-- A write of the open generation completes, and the one behind it begins.
theorem Fate.pops (fate : Fate g link p) (current : link.generation = g) (opened : link.opened = true)
    {packet : TxPacket} (flying : p.inFlight = [packet]) :
    Fate g { link with txQueue := link.txQueue.tail }
      { p with
        written := p.written ++ link.txQueue.tail.head?.toList
        completed := p.completed ++ [packet]
        inFlight := link.txQueue.tail.head?.toList } := by
  obtain ⟨appended, written, discarded, inFlight⟩ := fate.while_open current opened
  have first : link.txQueue.head?.toList = [packet] := inFlight.symm.trans flying
  obtain ⟨rest, queue⟩ : ∃ rest, link.txQueue = packet :: rest := by
    cases queue : link.txQueue with
    | nil => simp [queue] at first
    | cons front rest =>
      simp only [queue, List.head?_cons, Option.toList_some, List.cons.injEq, and_true] at first
      exact ⟨rest, by rw [first]⟩
  refine .opened current opened ?_ ?_ discarded rfl
  · simp [appended, queue]
  · simp [written, queue]

end Fates

def packetsOf (r : LinkRun) (ops : List LinkOp) (ends : List WriteEnd) : Packets where
  appended := appended g r.history
  written := written g r.history
  completed := completed g ends
  discarded := discarded g ends
  inFlight := inFlight g ops

variable {g}

theorem packetsOf_effects (r : LinkRun) (turn : SerialLink × List LinkEvent) (ops : List LinkOp)
    (ends more : List WriteEnd) :
    packetsOf g (r.effects turn).state (ops ++ turn.2.flatMap LinkEvent.started) (ends ++ more) =
      { appended := appended g r.history ++ turn.2.filterMap (LinkEvent.appended g)
        written := written g r.history ++ inFlight g (turn.2.flatMap LinkEvent.started)
        completed := completed g ends ++ completed g more
        discarded := discarded g ends ++ discarded g more
        inFlight := inFlight g ops ++ inFlight g (turn.2.flatMap LinkEvent.started) } := by
  simp [packetsOf, appended, written, inFlight, completed, discarded, LinkRun.effects,
    List.flatMap_map]

-- A turn that appends nothing and starts no write, and ends no write or generation.
theorem packetsOf_silent (r : LinkRun) (turn : SerialLink × List LinkEvent) (ops : List LinkOp)
    (ends : List WriteEnd) (unappended : turn.2.filterMap (LinkEvent.appended g) = [])
    (unwritten : inFlight g (turn.2.flatMap LinkEvent.started) = []) (more : List WriteEnd) :
    packetsOf g (r.effects turn).state (ops ++ turn.2.flatMap LinkEvent.started) (ends ++ more) =
      { packetsOf g r ops ends with
        completed := completed g ends ++ completed g more
        discarded := discarded g ends ++ discarded g more } := by
  rw [packetsOf_effects, unappended, unwritten, List.append_nil, List.append_nil, List.append_nil]
  rfl

theorem packetsOf_kept (r : LinkRun) (turn : SerialLink × List LinkEvent) (ops : List LinkOp)
    (ends : List WriteEnd) (unappended : turn.2.filterMap (LinkEvent.appended g) = [])
    (unwritten : inFlight g (turn.2.flatMap LinkEvent.started) = []) :
    packetsOf g (r.effects turn).state (ops ++ turn.2.flatMap LinkEvent.started) (ends ++ []) =
      packetsOf g r ops ends := by
  rw [packetsOf_silent r turn ops ends unappended unwritten, completed, completed, discarded, discarded,
    List.filterMap_nil, List.filterMap_nil, List.append_nil, List.append_nil]
  rfl

theorem discarded_discards (link : SerialLink) :
    discarded g link.discards = if link.generation = g then link.txQueue else [] := by
  by_cases current : link.generation = g
  · simp [discarded, SerialLink.discards, WriteEnd.discards, current, List.filterMap_map, Function.comp_def]
  · simp [discarded, SerialLink.discards, WriteEnd.discards, current, List.filterMap_map, Function.comp_def]

theorem completed_discards (link : SerialLink) : completed g link.discards = [] := by
  simp [completed, SerialLink.discards, WriteEnd.completes, List.filterMap_map, Function.comp_def]

theorem perm_eq_of_le_one {α : Type} {xs ys : List α} (perm : xs.Perm ys) (few : xs.length ≤ 1) : xs = ys := by
  match xs with
  | [] => exact (List.nil_perm.mp perm).symm
  | [x] => exact (List.perm_singleton.mp perm.symm).symm
  | _ :: _ :: _ => simp at few

-- At most one write of a generation is in flight, so that its handler's is the one.
theorem inFlight_removed {all ops : List LinkOp} {op : LinkOp} (one : (inFlight g all).length ≤ 1)
    (perm : all.Perm (op :: ops)) : inFlight g all = (op.written g).toList ++ inFlight g ops := by
  apply perm_eq_of_le_one _ one
  have moved := perm.filterMap (LinkOp.written g)
  cases packet : op.written g with
  | none =>
    rw [List.filterMap_cons_none packet] at moved
    exact moved
  | some packet' =>
    rw [List.filterMap_cons_some packet] at moved
    exact moved

theorem SerialLink.Started.silent {link : SerialLink} {turn : SerialLink × List LinkEvent}
    (started : link.Started turn) : turn.2.filterMap (LinkEvent.appended g) = [] ∧
      inFlight g (turn.2.flatMap LinkEvent.started) = [] := by
  cases started <;> exact ⟨rfl, rfl⟩

namespace LinkLoop

theorem fate_call {l : LinkLoop} {ends : List WriteEnd} (sound : l.link.Sound l.ops)
    (fate : Fate g l.link (packetsOf g l.state l.ops ends)) (c : LinkCall) :
    Fate g (l.link.call c).1 (packetsOf g (l.state.effects (l.link.call c)).state
      (l.ops ++ (l.link.call c).2.flatMap LinkEvent.started) (ends ++ l.writeEnds (.call c))) := by
  cases c with
  | start serial =>
    have started := l.link.start_cases fun _ => serial
    obtain ⟨unappended, unwritten⟩ := started.silent (g := g)
    exact (fate.started sound.empty started).of_eq (packetsOf_kept _ _ _ _ unappended unwritten).symm
  | stop =>
    have fate := fate.renewed l.link.stop.1 sound.empty rfl (.none_ended (.inr ⟨rfl, rfl, rfl⟩))
    have after := packetsOf_silent (g := g) l.state l.link.stop l.ops ends rfl rfl l.link.discards
    rw [discarded_discards, completed_discards, List.append_nil] at after
    exact fate.of_eq after.symm
  | write data =>
    have posts : l.link.writeBytes data = [] ∨ ∃ packet, l.link.writeBytes data = [.post packet] := by
      unfold SerialLink.writeBytes
      split
      next => exact .inl rfl
      next => exact .inr ⟨_, rfl⟩
    have unappended : (l.link.writeBytes data).filterMap (LinkEvent.appended g) = [] := by
      rcases posts with none | ⟨packet, one⟩
      · rw [none, List.filterMap_nil]
      · rw [one]
        rfl
    have unwritten : inFlight g ((l.link.writeBytes data).flatMap LinkEvent.started) = [] := by
      rw [l.link.writeBytes_started]
      rfl
    exact fate.of_eq (packetsOf_kept _ (l.link, l.link.writeBytes data) _ _ unappended unwritten).symm

theorem fate_closure {l : LinkLoop} {ends : List WriteEnd}
    (fate : Fate g l.link (packetsOf g l.state l.ops ends)) (packet : TxPacket) :
    Fate g (l.link.runWrite packet).1 (packetsOf g (l.state.effects (l.link.runWrite packet)).state
      (l.ops ++ (l.link.runWrite packet).2.flatMap LinkEvent.started) (ends ++ [])) := by
  have ran := l.link.runWrite_cases packet
  generalize l.link.runWrite packet = turn at ran
  cases ran with
  | dropped closed => exact fate.of_eq (packetsOf_kept _ _ _ _ rfl rfl).symm
  | behind opened busy =>
    by_cases current : l.link.generation = g
    · refine (fate.appends current opened busy packet).of_eq ?_
      rw [packetsOf_effects]
      simp [packetsOf, current, LinkEvent.appended, LinkEvent.started, inFlight, completed, discarded]
    · refine (fate.elsewhere { l.link with txQueue := l.link.txQueue ++ [packet] } current
        current (Nat.le_refl _) (Nat.le_succ _)).of_eq (packetsOf_kept _ _ _ _ ?_ rfl).symm
      simp [LinkEvent.appended, current]
  | first opened idle =>
    by_cases current : l.link.generation = g
    · refine (fate.begins current opened idle packet).of_eq ?_
      rw [packetsOf_effects]
      simp [packetsOf, current, LinkEvent.appended, LinkEvent.started, LinkOp.written, inFlight, completed,
        discarded]
    · refine (fate.elsewhere { l.link with txQueue := [packet] } current current
        (Nat.le_refl _) (Nat.le_succ _)).of_eq (packetsOf_kept _ _ _ _ ?_ ?_).symm
      · simp [LinkEvent.appended, current]
      · simp [LinkEvent.started, LinkOp.written, inFlight, current]

-- What is left in flight once an operation is not outstanding any more.
theorem packetsOf_other {l : LinkLoop} {ends : List WriteEnd}
    (fate : Fate g l.link (packetsOf g l.state l.ops ends)) {op : LinkOp} {ops : List LinkOp}
    (perm : l.ops.Perm (op :: ops)) (other : op.written g = none) :
    packetsOf g l.state l.ops ends = packetsOf g l.state ops ends := by
  have removed := inFlight_removed fate.one_inFlight perm
  rw [other, Option.toList_none, List.nil_append] at removed
  rw [packetsOf, removed]
  rfl

theorem inFlight_one {l : LinkLoop} {ends : List WriteEnd}
    (fate : Fate g l.link (packetsOf g l.state l.ops ends)) {op : LinkOp} {ops : List LinkOp}
    (perm : l.ops.Perm (op :: ops)) {packet : TxPacket} (own : op.written g = some packet) :
    inFlight g l.ops = [packet] ∧ inFlight g ops = [] := by
  have removed := inFlight_removed fate.one_inFlight perm
  have few := fate.one_inFlight
  rw [own, Option.toList_some, List.singleton_append] at removed
  have none : inFlight g ops = [] := by
    change (inFlight g l.ops).length ≤ 1 at few
    rw [removed, List.length_cons] at few
    exact List.length_eq_zero_iff.mp (by omega)
  exact ⟨by rw [removed, none], none⟩

theorem fate_stale {l : LinkLoop} {ends : List WriteEnd}
    (fate : Fate g l.link (packetsOf g l.state l.ops ends)) {op : LinkOp} {ops : List LinkOp}
    (perm : l.ops.Perm (op :: ops)) (stale : op.generation ≠ l.link.generation) (result : Completion) :
    Fate g l.link (packetsOf g (l.state.effects (l.link, [])).state (ops ++ [])
      (ends ++ l.link.ends op result)) := by
  have after := packetsOf_silent (g := g) l.state (l.link, []) ops ends rfl rfl
    (l.link.ends op result)
  refine Fate.of_eq ?_ after.symm
  cases own : op.written g with
  | some packet =>
    obtain ⟨flying, none⟩ := inFlight_one fate perm own
    cases op with
    | write generation packet' =>
      simp only [LinkOp.written, Option.ite_none_right_eq_some, Option.some.injEq] at own
      obtain ⟨rfl, rfl⟩ := own
      cases result with
      | error message =>
        have unended : l.link.ends (.write generation packet') (.error message) = [] := if_neg stale
        refine (fate.lost fun current => absurd current.symm stale).of_eq ?_
        simp [packetsOf, unended, none, completed, discarded]
      | ok data =>
        refine (fate.delivered (fun current => absurd current.symm stale) flying).of_eq ?_
        simp [packetsOf, SerialLink.ends, none, completed, discarded, WriteEnd.completes, WriteEnd.discards]
    | _ => cases own
  | none =>
    refine fate.of_eq ((packetsOf_other fate perm own).trans ?_)
    have silent : completed g (l.link.ends op result) = [] ∧ discarded g (l.link.ends op result) = [] := by
      cases result with
      | error message =>
        have unended : l.link.ends op (.error message) = [] := by
          cases op <;> exact if_neg stale
        rw [unended]
        exact ⟨rfl, rfl⟩
      | ok data =>
        cases op with
        | write generation packet' =>
          simp only [LinkOp.written, ite_eq_right_iff, reduceCtorEq, imp_false] at own
          simp [SerialLink.ends, completed, discarded, WriteEnd.completes, WriteEnd.discards, own]
        | _ => exact ⟨rfl, rfl⟩
    rw [silent.1, silent.2, List.append_nil, List.append_nil]
    rfl

theorem fate_failed {l : LinkLoop} {ends : List WriteEnd} (sound : l.link.Sound l.ops)
    (fate : Fate g l.link (packetsOf g l.state l.ops ends)) {op : LinkOp} {ops : List LinkOp}
    (perm : l.ops.Perm (op :: ops)) (current : op.generation = l.link.generation) (message err : Text) :
    let closed : SerialLink := { l.link with opened := false, connecting := false, txQueue := [] }
    Fate g closed (packetsOf g (l.state.effects (closed, [.onError err])).state (ops ++ [])
      (ends ++ l.link.ends op (.error message))) := by
  intro closed
  have discards : l.link.ends op (.error message) = l.link.discards := by
    cases op <;> exact if_pos current
  have after := packetsOf_silent (g := g) l.state (closed, [.onError err]) ops ends rfl
    rfl l.link.discards
  rw [discards]
  refine Fate.of_eq ?_ after.symm
  rw [discarded_discards, completed_discards, List.append_nil]
  by_cases here : l.link.generation = g
  · rw [if_pos here]
    have fate' := fate.finish closed here sound.empty (.inr ⟨here, rfl, rfl⟩)
    cases own : op.written g with
    | some packet =>
      obtain ⟨-, none⟩ := inFlight_one fate perm own
      refine (fate'.lost fun _ => rfl).of_eq ?_
      simp [packetsOf, none]
    | none =>
      refine fate'.of_eq ?_
      rw [packetsOf_other fate perm own]
      rfl
  · have own : op.written g = none := by
      cases op <;> simp_all [LinkOp.written, LinkOp.generation]
    rw [if_neg here, List.append_nil]
    refine (fate.elsewhere closed here here (Nat.le_refl _) (Nat.le_succ _)).of_eq ?_
    rw [packetsOf_other fate perm own]
    rfl

theorem fate_connected {l : LinkLoop} {p : Packets} {ops : List LinkOp}
    (sound : l.link.Sound (.connect l.link.generation :: ops)) (fate : Fate g l.link p) :
    Fate g { l.link with connecting := false, opened := true } p := by
  by_cases here : l.link.generation = g
  · cases sound.phase with
    | opened _ _ attempts =>
      rw [SerialLink.live_current rfl] at attempts
      exact absurd attempts (Nat.succ_ne_zero _)
    | closed _ _ _ attempts =>
      rw [SerialLink.live_current rfl] at attempts
      exact absurd attempts (Nat.succ_ne_zero _)
    | connecting closed connecting empty =>
      cases fate with
      | fresh coming none =>
        refine .opened here rfl ?_ ?_ ?_ ?_ <;> simp [none, empty]
      | opened _ opened =>
        rw [closed] at opened
        contradiction
      | ended done gone =>
        rcases gone with earlier | ⟨-, -, settled⟩
        · omega
        · rw [connecting] at settled
          contradiction
  · exact fate.elsewhere _ here here (Nat.le_refl _) (Nat.le_succ _)

-- The write that the next one in the queue, if any, is started with.
theorem doWrite_written (link : SerialLink) :
    (link.doWrite link.generation).filterMap (LinkEvent.appended g) = [] ∧
      inFlight g ((link.doWrite link.generation).flatMap LinkEvent.started) =
        if link.generation = g ∧ link.opened = true then link.txQueue.head?.toList else [] := by
  unfold SerialLink.doWrite
  split
  next shut =>
    have closed : link.opened = false := by simpa using shut
    simp [closed, inFlight]
  next open_ =>
    have opened : link.opened = true := by simpa using open_
    cases link.txQueue with
    | nil => simp [inFlight]
    | cons packet rest =>
      by_cases current : link.generation = g <;>
        simp [inFlight, LinkEvent.appended, LinkEvent.started, LinkOp.written, opened, current]

theorem fate_written {l : LinkLoop} {ends : List WriteEnd} (sound : l.link.Sound l.ops)
    (fate : Fate g l.link (packetsOf g l.state l.ops ends)) {packet : TxPacket} {ops : List LinkOp}
    (perm : l.ops.Perm (.write l.link.generation packet :: ops)) :
    let popped : SerialLink := { l.link with txQueue := l.link.txQueue.tail }
    Fate g popped (packetsOf g (l.state.effects (popped, popped.doWrite l.link.generation)).state
      (ops ++ (popped.doWrite l.link.generation).flatMap LinkEvent.started)
      (ends ++ [.completed l.link.generation packet])) := by
  intro popped
  have completes : completed g [.completed l.link.generation packet] =
      if l.link.generation = g then [packet] else [] := by
    by_cases here : l.link.generation = g <;> simp [completed, WriteEnd.completes, here]
  obtain ⟨unappended, written⟩ := doWrite_written (g := g) popped
  have after := packetsOf_effects (g := g) l.state (popped, popped.doWrite popped.generation) ops ends
    [.completed l.link.generation packet]
  rw [unappended, written, completes] at after
  refine Fate.of_eq ?_ after.symm
  by_cases here : l.link.generation = g
  · obtain ⟨flying, none⟩ := inFlight_one fate perm (show LinkOp.written g (.write _ packet) = _ from if_pos here)
    cases opened : l.link.opened with
    | true =>
      refine (fate.pops here opened flying).of_eq ?_
      simp [packetsOf, popped, here, none, discarded, WriteEnd.discards]
    | false =>
      have same : popped = l.link := by
        have empty := sound.empty opened
        simp only [popped, empty, List.tail_nil]
        rw [← empty]
      rw [same]
      refine (fate.delivered (fun _ => opened) flying).of_eq ?_
      simp [packetsOf, here, none, discarded, WriteEnd.discards]
  · have own : LinkOp.written g (.write l.link.generation packet) = none := if_neg here
    refine (fate.elsewhere popped here here (Nat.le_refl _) (Nat.le_succ _)).of_eq ?_
    rw [packetsOf_other fate perm own]
    simp [packetsOf, popped, here, discarded, WriteEnd.discards]

theorem read_silent (link : SerialLink) (data : List UInt8) :
    let events := (if data = [] then [] else [.onBytes link.generation data]) ++ link.doRead link.generation
    events.filterMap (LinkEvent.appended g) = [] ∧
      inFlight g (events.flatMap LinkEvent.started) = [] := by
  intro events
  simp only [events]
  rcases SerialLink.doRead_cases link link.generation with none | one
  · rw [none]
    split <;> exact ⟨rfl, rfl⟩
  · rw [one]
    split <;> exact ⟨rfl, rfl⟩

theorem fate_handler {l : LinkLoop} {ends : List WriteEnd} (sound : l.link.Sound l.ops)
    (fate : Fate g l.link (packetsOf g l.state l.ops ends)) {op : LinkOp} {ops : List LinkOp}
    (perm : l.ops.Perm (op :: ops)) (result : Completion) :
    Fate g (l.link.handler op result).1 (packetsOf g (l.state.effects (l.link.handler op result)).state
      (ops ++ (l.link.handler op result).2.flatMap LinkEvent.started)
      (ends ++ l.link.ends op result)) := by
  by_cases current : op.generation = l.link.generation
  · have ran := SerialLink.handler_current current result
    generalize l.link.handler op result = turn at ran
    cases ran with
    | failed err => exact fate_failed sound fate perm current _ err
    | resolved =>
      refine fate.of_eq ((packetsOf_other fate perm rfl).trans ?_)
      exact (packetsOf_kept _ _ _ _ rfl rfl).symm
    | connected =>
      refine (fate_connected (sound.perm perm) fate).of_eq ((packetsOf_other fate perm rfl).trans ?_)
      exact (packetsOf_kept _ _ _ _ rfl rfl).symm
    | @read data =>
      obtain ⟨unappended, unwritten⟩ := read_silent (g := g) l.link data
      refine fate.of_eq ((packetsOf_other fate perm rfl).trans ?_)
      exact (packetsOf_kept _ (l.link, _) _ _ unappended unwritten).symm
    | written => exact fate_written sound fate perm
  · rw [SerialLink.handler_stale current]
    exact fate_stale fate perm current result

theorem fate_step {l t : LinkLoop} {a : EventLoop.Action Completion LinkCall} {ends : List WriteEnd}
    (sound : l.link.Sound l.ops) (fate : Fate g l.link (packetsOf g l.state l.ops ends))
    (taken : step LinkRun.party l a = .next t) :
    Fate g t.link (packetsOf g t.state t.ops (ends ++ l.writeEnds a)) := by
  refine step_turn (motive := fun r ops => Fate g r.link (packetsOf g r ops (ends ++ l.writeEnds a)))
    ?_ ?_ ?_ ?_ taken
  · rintro i result rfl
    change Fate g l.link (packetsOf g l.state l.ops (ends ++ []))
    rw [List.append_nil]
    exact fate
  · rintro c rfl
    exact fate_call sound fate c
  · rintro i packet rfl
    exact fate_closure fate packet
  · rintro i op result ops rfl here perm
    have ended : l.writeEnds (.handler i) = l.link.ends op result := by simp only [writeEnds, here]
    rw [ended]
    exact fate_handler sound fate perm result

theorem head_front (packets : List TxPacket) : packets.head?.toList <+: packets := by
  cases packets with
  | nil => exact List.prefix_refl _
  | cons packet rest => exact ⟨rest, rfl⟩

theorem queued_closed {l : LinkLoop} (sound : l.link.Sound l.ops)
    (closed : l.link.generation = g → l.link.opened = false) : queued g l.link = [] := by
  unfold queued
  split
  next current => exact sound.empty (closed current)
  next => rfl

theorem inOrder_of_fate {l : LinkLoop} {ends : List WriteEnd} (sound : l.link.Sound l.ops)
    (fate : Fate g l.link (packetsOf g l.state l.ops ends)) : InOrder g l ends := by
  cases fate with
  | fresh coming none =>
    have unqueued : queued g l.link = [] := by
      apply queued_closed sound
      intro current
      rcases coming with later | ⟨-, -, closed⟩
      · omega
      · exact closed
    simp only [packetsOf, Packets.mk.injEq] at none
    obtain ⟨appended, written, completed, discarded, inFlight⟩ := none
    refine ⟨?_, ?_, ?_, ⟨[], ?_⟩, ⟨[], ?_⟩, ?_⟩ <;>
      simp [appended, written, completed, discarded, inFlight, unqueued]
  | opened current opened appended written discarded inFlight =>
    simp only [packetsOf] at appended written discarded inFlight
    have all : queued g l.link = l.link.txQueue := if_pos current
    constructor
    · rw [appended, written]
      exact (List.prefix_append_right_inj _).mpr (head_front _)
    · rw [written]
      exact List.prefix_append _ _
    · rw [written, List.length_append]
      exact Nat.add_le_add_left (length_head? _) _
    · exact ⟨_, written, .inl inFlight⟩
    · exact ⟨_, List.prefix_refl _, by rw [appended, discarded, all, List.append_nil]⟩
    · exact fun some => absurd discarded some
  | ended done gone entered issued last =>
    simp only [packetsOf] at entered issued last
    have closed : l.link.generation = g → l.link.opened = false := by
      intro current
      rcases gone with earlier | ⟨-, closed, -⟩
      · omega
      · exact closed
    have tail : ∃ tail, written g l.state.history = completed g ends ++ tail ∧ tail.length ≤ 1 ∧
        (inFlight g l.ops = tail ∨ inFlight g l.ops = []) ∧ done <+: completed g ends := by
      rcases last with ⟨complete, flying⟩ | ⟨complete, none⟩
      · exact ⟨_, by rw [issued, complete], length_head? _, flying, complete ▸ List.prefix_refl _⟩
      · refine ⟨[], by rw [complete, List.append_nil], Nat.zero_le _, .inl none, ?_⟩
        rw [complete, issued]
        exact List.prefix_append _ _
    obtain ⟨tail, split, few, flying, kept⟩ := tail
    constructor
    · rw [entered, issued]
      exact (List.prefix_append_right_inj _).mpr (head_front _)
    · rw [split]
      exact List.prefix_append _ _
    · rw [split, List.length_append]
      exact Nat.add_le_add_left few _
    · exact ⟨tail, split, flying⟩
    · exact ⟨done, kept, by rw [entered, queued_closed sound closed, List.append_nil]⟩
    · intro _
      by_cases current : l.link.generation = g
      · exact .inr (closed current)
      · exact .inl current

theorem fate_idle (transport : Transport) :
    Fate g (idle transport).link (packetsOf g (idle transport).state (idle transport).ops []) := by
  by_cases first : g = 0
  · exact .none_ended (.inr ⟨first.symm, rfl, rfl⟩)
  · exact .fresh (.inl (Nat.pos_of_ne_zero first)) rfl

end LinkLoop

theorem device_writes_in_order (transport : Transport)
    (actions : List (EventLoop.Action Completion LinkCall)) (l : LinkLoop)
    (ran : run (step LinkRun.party) (LinkLoop.idle transport) actions = some l) (g : Nat) :
    InOrder g l (observed (step LinkRun.party) LinkLoop.writeEnds (LinkLoop.idle transport) actions) := by
  have reached := observed_invariant
    (motive := fun (l : LinkLoop) ends => l.link.Sound l.ops ∧ Fate g l.link (packetsOf g l.state l.ops ends))
    (fun _ _ _ _ before taken =>
      ⟨LinkLoop.sound_step before.1 taken, LinkLoop.fate_step before.1 before.2 taken⟩)
    actions ⟨LinkLoop.sound_idle transport, LinkLoop.fate_idle transport⟩ ran
  exact LinkLoop.inOrder_of_fate reached.1 reached.2

-- Three packets: the first is written, the second is being written when a read fails.
def readFails : List (EventLoop.Action Completion LinkCall) :=
  [.call (.start .opened), .finish 0 (.ok []), .handler 0, .finish 0 (.ok []), .handler 0,
    .call (.write [1]), .call (.write [2]), .call (.write [3]), .closure 0, .closure 0, .closure 0,
    .finish 1 (.ok []), .handler 1, .finish 0 (.error []), .handler 0, .finish 0 (.ok []), .handler 0]

theorem device_writes_in_order_read_fails : ∃ l : LinkLoop,
    run (step LinkRun.party) (LinkLoop.idle { isTcp := true }) readFails = some l ∧
      (appended 1 l.state.history).map TxPacket.bytes = [[1], [2], [3]] ∧
      (written 1 l.state.history).map TxPacket.bytes = [[1], [2]] ∧
      InOrder 1 l (observed (step LinkRun.party) LinkLoop.writeEnds (LinkLoop.idle { isTcp := true })
        readFails) := by
  have ran : (run (step LinkRun.party) (LinkLoop.idle { isTcp := true }) readFails).map (fun l =>
      ((appended 1 l.state.history).map TxPacket.bytes,
        (written 1 l.state.history).map TxPacket.bytes)) =
      some ([[1], [2], [3]], [[1], [2]]) := by decide +kernel
  obtain ⟨l, reached, lists⟩ := Option.map_eq_some_iff.mp ran
  exact ⟨l, reached, (Prod.mk.inj lists).1, (Prod.mk.inj lists).2,
    device_writes_in_order _ readFails l reached 1⟩

end ExnGs.Daemon
