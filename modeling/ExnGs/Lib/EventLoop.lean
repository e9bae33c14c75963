import ExnGs.Lib.Machine
import ExnGs.Lib.WriteQueue

set_option autoImplicit false

-- One party of a single-threaded event loop. The operations it starts run outside of the loop; they
-- end in any order, and their handlers and the closures it posts run one at a time, in any order.
namespace EventLoop

structure Effects (σ ω β : Type) where
  state : σ
  started : List ω := []
  posted : List β := []

-- `call` is given a number not used before. A handler without effects has none that are defined.
structure Party (σ ω β ρ φ : Type) where
  call : Nat → σ → φ → Effects σ ω β
  closure : σ → β → Effects σ ω β
  mayEnd : σ → ω → ρ → Bool
  handler : σ → ω → ρ → Option (Effects σ ω β)

structure Pending (ω ρ : Type) where
  op : ω
  result : Option ρ := none
  deriving DecidableEq, Repr

structure Loop (σ ω β ρ : Type) where
  state : σ
  calls : Nat := 0
  posted : List β := []
  pending : List (Pending ω ρ) := []
  deriving DecidableEq, Repr

inductive Action (ρ φ : Type)
  | call (argument : φ)
  | closure (i : Nat)
  | finish (i : Nat) (result : ρ)
  | handler (i : Nat)
  deriving DecidableEq, Repr

variable {σ ω β ρ φ : Type}

def Loop.after (l : Loop σ ω β ρ) (posted : List β) (pending : List (Pending ω ρ))
    (effects : Effects σ ω β) : Loop σ ω β ρ :=
  { l with
    state := effects.state
    posted := posted ++ effects.posted
    pending := pending ++ effects.started.map fun op => { op } }

def step (party : Party σ ω β ρ φ) (l : Loop σ ω β ρ) : Action ρ φ → Outcome (Loop σ ω β ρ)
  | .call argument =>
    .next { l.after l.posted l.pending (party.call l.calls l.state argument) with
            calls := l.calls + 1 }
  | .closure i =>
    match l.posted[i]? with
    | none => .disabled
    | some closure =>
      .next (l.after (l.posted.eraseIdx i) l.pending (party.closure l.state closure))
  | .finish i result =>
    match l.pending[i]? with
    | some { op, result := none } =>
      if party.mayEnd l.state op result then
        .next { l with pending := l.pending.set i { op, result := some result } }
      else .disabled
    | _ => .disabled
  | .handler i =>
    match l.pending[i]? with
    | some { op, result := some result } =>
      match party.handler l.state op result with
      | none => .undefined
      | some effects => .next (l.after l.posted (l.pending.eraseIdx i) effects)
    | _ => .disabled

theorem split_eraseIdx {α : Type} {xs : List α} {i : Nat} {x : α} (here : xs[i]? = some x) :
    ∃ before after, xs = before ++ x :: after ∧ xs.eraseIdx i = before ++ after := by
  obtain ⟨inside, rfl⟩ := List.getElem?_eq_some_iff.mp here
  refine ⟨xs.take i, xs.drop (i + 1), ?_, List.eraseIdx_eq_take_drop_succ xs i⟩
  rw [List.getElem_cons_drop, List.take_append_drop]

-- The operations are the same once one of them has ended.
theorem map_op_set {pending : List (Pending ω ρ)} {i : Nat} {op : ω} {before : Option ρ}
    (here : pending[i]? = some { op, result := before }) (result : Option ρ) :
    (pending.set i { op, result }).map Pending.op = pending.map Pending.op := by
  obtain ⟨inside, what⟩ := List.getElem?_eq_some_iff.mp here
  have bound : i < (pending.map Pending.op).length := by simpa using inside
  have old : op = (pending.map Pending.op)[i] := by rw [List.getElem_map, what]
  rw [List.map_set, old, List.set_getElem_self]

def Loop.ops (l : Loop σ ω β ρ) : List ω := l.pending.map Pending.op

theorem ops_after (l : Loop σ ω β ρ) (posted : List β) (pending : List (Pending ω ρ))
    (e : Effects σ ω β) : (l.after posted pending e).ops = pending.map Pending.op ++ e.started := by
  simp [Loop.ops, Loop.after, Function.comp_def]

/-- Every step is a turn of the party, of which a handler's operation is outstanding no more, or the
end of an operation. -/
theorem step_turn {party : Party σ ω β ρ φ} {motive : σ → List ω → Prop} {l t : Loop σ ω β ρ}
    {a : Action ρ φ} (finish : ∀ i r, a = .finish i r → motive l.state l.ops)
    (call : ∀ x, a = .call x → motive (party.call l.calls l.state x).state
      (l.ops ++ (party.call l.calls l.state x).started))
    (closure : ∀ i b, a = .closure i → motive (party.closure l.state b).state
      (l.ops ++ (party.closure l.state b).started))
    (handler : ∀ i op r before after e, a = .handler i →
      l.pending[i]? = some { op, result := some r } → l.ops = before ++ op :: after →
      (l.pending.eraseIdx i).map Pending.op = before ++ after → party.handler l.state op r = some e →
      motive e.state (before ++ after ++ e.started))
    (taken : step party l a = .next t) : motive t.state t.ops := by
  cases a with
  | call x =>
    cases taken
    change motive _ (l.after l.posted l.pending _).ops
    rw [ops_after]
    exact call x rfl
  | closure i =>
    simp only [step] at taken
    split at taken
    next => contradiction
    next b here =>
      cases taken
      rw [ops_after]
      exact closure i b rfl
  | finish i r =>
    simp only [step] at taken
    split at taken
    next op here =>
      split at taken
      next =>
        cases taken
        change motive l.state ((l.pending.set i _).map Pending.op)
        rw [map_op_set here]
        exact finish i r rfl
      next => contradiction
    next => contradiction
  | handler i =>
    simp only [step] at taken
    split at taken
    next op r here =>
      split at taken
      next => contradiction
      next e handled =>
        cases taken
        obtain ⟨before, after, split, erased⟩ := split_eraseIdx here
        have all : l.ops = before.map Pending.op ++ op :: after.map Pending.op := by
          rw [Loop.ops, split, List.map_append, List.map_cons]
        have left : (l.pending.eraseIdx i).map Pending.op =
            before.map Pending.op ++ after.map Pending.op := by
          rw [erased, List.map_append]
        rw [ops_after, left]
        exact handler i op r _ _ e rfl here all left handled
    next => contradiction

/-- What a party keeps true of its state and the operations it waits for, as long as the handlers
that run are allowed to: the operations that are left are known to `allowed`. -/
structure Party.Keeps (party : Party σ ω β ρ φ) (allowed : σ → List ω → ω → ρ → Prop)
    (inv : σ → List ω → Prop) : Prop where
  call : ∀ n s ops x, inv s ops → inv (party.call n s x).state (ops ++ (party.call n s x).started)
  closure : ∀ s ops b, inv s ops → inv (party.closure s b).state (ops ++ (party.closure s b).started)
  handler : ∀ s before op after r e, inv s (before ++ op :: after) → allowed s (before ++ after) op r →
    party.handler s op r = some e → inv e.state (before ++ after ++ e.started)

def Allowed (allowed : σ → List ω → ω → ρ → Prop) (l : Loop σ ω β ρ) (a : Action ρ φ) : Prop :=
  ∀ i op r, a = .handler i → l.pending[i]? = some { op, result := some r } →
    allowed l.state ((l.pending.eraseIdx i).map Pending.op) op r

instance decidableAllowed (allowed : σ → List ω → ω → ρ → Prop)
    [∀ s ops op r, Decidable (allowed s ops op r)] (l : Loop σ ω β ρ) :
    ∀ a : Action ρ φ, Decidable (Allowed allowed l a)
  | .handler i =>
    match here : l.pending[i]? with
    | some { op, result := some r } =>
      decidable_of_iff (allowed l.state ((l.pending.eraseIdx i).map Pending.op) op r) <| by
        constructor
        · rintro met j op' r' ⟨⟩ there
          rw [here] at there
          cases there
          exact met
        · exact fun met => met i op r rfl here
    | some { op, result := none } | none => .isTrue <| by
        rintro j op' r' ⟨⟩ there
        rw [here] at there
        cases there
  | .call _ | .closure _ | .finish _ _ => .isTrue <| by
    rintro j op r ⟨⟩

theorem Party.Keeps.step {party : Party σ ω β ρ φ} {allowed : σ → List ω → ω → ρ → Prop}
    {inv : σ → List ω → Prop} (keeps : party.Keeps allowed inv) (l : Loop σ ω β ρ) (a : Action ρ φ)
    (l' : Loop σ ω β ρ) (holds : inv l.state l.ops) (met : Allowed allowed l a)
    (taken : EventLoop.step party l a = .next l') : inv l'.state l'.ops := by
  refine step_turn (fun _ _ _ => holds) ?_ ?_ ?_ taken
  · exact fun x _ => keeps.call _ _ _ x holds
  · exact fun _ b _ => keeps.closure _ _ b holds
  · intro i op r before after e ran here all left handled
    have allowed := met i op r ran here
    rw [left] at allowed
    rw [all] at holds
    exact keeps.handler _ _ op _ r e holds allowed handled

/-- A party that writes the buffers its closures bring, one at a time. `write` is what a write was
given, and the epoch of the queue it was started in; a handler that clears the queue ends the
epoch. -/
structure Writer (party : Party σ ω β ρ φ) where
  queue : σ → List β
  epoch : σ → Nat
  write : ω → Option (Nat × β)
  succeeded : ρ → Bool
  ident : β → Nat
  valid : σ → Prop

namespace Writer

variable {party : Party σ ω β ρ φ} (w : Writer party)

def writes (ops : List ω) : List (Nat × β) := ops.filterMap w.write

structure Kept (s : σ) (e : Effects σ ω β) : Prop where
  queue : w.queue e.state = w.queue s
  epoch : w.epoch e.state = w.epoch s
  started : w.writes e.started = []

structure Cleared (s : σ) (e : Effects σ ω β) : Prop where
  queue : w.queue e.state = []
  epoch : w.epoch e.state = w.epoch s + 1
  started : w.writes e.started = []

structure Queued (s : σ) (buffer : β) (e : Effects σ ω β) : Prop where
  queue : w.queue e.state = w.queue s ++ [buffer]
  epoch : w.epoch e.state = w.epoch s
  started : w.writes e.started = if w.queue s = [] then [(w.epoch s, buffer)] else []

structure Finished (s : σ) (e : Effects σ ω β) : Prop where
  queue : w.queue e.state = (w.queue s).tail
  epoch : w.epoch e.state = w.epoch s
  started : w.writes e.started = WriteQueue.front (w.epoch s) (w.queue s).tail

-- What a party has to do to write its queue in order.
structure Lawful : Prop where
  call : ∀ n s x, w.valid s → w.valid (party.call n s x).state ∧ w.Kept s (party.call n s x) ∧
    ∃ buffer, (party.call n s x).posted = [buffer] ∧ w.ident buffer = n
  closure : ∀ s b, w.valid s → w.valid (party.closure s b).state ∧
    (w.Kept s (party.closure s b) ∨ w.Queued s b (party.closure s b)) ∧
    (party.closure s b).posted = []
  finish : ∀ s op r e write, w.valid s → w.write op = some write → w.succeeded r = true →
    write.1 = w.epoch s → party.handler s op r = some e →
    w.valid e.state ∧ w.Finished s e ∧ e.posted = []
  other : ∀ s op r e, w.valid s → (w.write op = none ∨ w.succeeded r = false) →
    party.handler s op r = some e →
    w.valid e.state ∧ (w.Cleared s e ∨
      w.Kept s e ∧ ∀ write, w.write op = some write → write.1 ≠ w.epoch s ∨ w.queue s = []) ∧
    e.posted = []

def view (l : Loop σ ω β ρ) : WriteQueue β where
  posted := l.posted
  queue := w.queue l.state
  inFlight := w.writes (l.pending.map Pending.op)
  clears := w.epoch l.state

structure Inv (l : Loop σ ω β ρ) : Prop where
  valid : w.valid l.state
  disciplined : (w.view l).Disciplined
  posted : ∀ buffer ∈ l.posted, w.ident buffer < l.calls
  queued : ∀ buffer ∈ w.queue l.state, w.ident buffer < l.calls
  writing : ∀ write ∈ w.writes (l.pending.map Pending.op), w.ident write.2 < l.calls

def Handles (l : Loop σ ω β ρ) (a : Action ρ φ) (write : Nat × β) : Prop :=
  ∃ i op r, a = .handler i ∧ l.pending[i]? = some { op, result := some r } ∧
    w.write op = some write ∧ w.succeeded r = true

-- The handler of a successful write finds the buffer it wrote at the front of the queue.
def FindsItsBuffer (l : Loop σ ω β ρ) (a : Action ρ φ) : Prop :=
  ∀ write, w.Handles l a write → (w.queue l.state).head? = some write.2

-- The queue has not been cleared between the start of a write and the handler of its success.
def SameEpoch (l : Loop σ ω β ρ) (a : Action ρ φ) : Prop :=
  ∀ write, w.Handles l a write → write.1 = w.epoch l.state

theorem findsItsBuffer_iff {l : Loop σ ω β ρ} (inv : w.Inv l) (a : Action ρ φ) :
    w.FindsItsBuffer l a ↔ w.SameEpoch l a := by
  refine forall_congr' fun write => imp_congr_right fun handles => ?_
  obtain ⟨i, op, r, _, here, isWrite, _⟩ := handles
  have member : write ∈ (w.view l).inFlight := by
    simp only [view, writes, List.filterMap_map, List.mem_filterMap, Function.comp_apply]
    exact ⟨_, List.mem_of_getElem? here, isWrite⟩
  exact inv.disciplined.front_iff member

@[simp] theorem writes_append (left right : List ω) :
    w.writes (left ++ right) = w.writes left ++ w.writes right := by
  simp [writes]

theorem writes_cons_some {op : ω} {write : Nat × β} (isWrite : w.write op = some write)
    (ops : List ω) : w.writes (op :: ops) = write :: w.writes ops := by
  simp [writes, isWrite]

theorem writes_cons_none {op : ω} (other : w.write op = none) (ops : List ω) :
    w.writes (op :: ops) = w.writes ops := by
  simp [writes, other]

theorem view_after (l : Loop σ ω β ρ) (posted : List β) (pending : List (Pending ω ρ))
    (e : Effects σ ω β) :
    w.view (l.after posted pending e) =
      { posted := posted ++ e.posted
        queue := w.queue e.state
        inFlight := w.writes (pending.map Pending.op) ++ w.writes e.started
        clears := w.epoch e.state } := by
  simp [view, Loop.after, Function.comp_def]

theorem Inv.bounded {w : Writer party} {l : Loop σ ω β ρ} (inv : w.Inv l) {posted : List β}
    {pending : List (Pending ω ρ)} {e : Effects σ ω β} (valid : w.valid e.state)
    (disciplined : (w.view (l.after posted pending e)).Disciplined)
    (fewer : posted ⊆ l.posted) (none : e.posted = [])
    (rest : pending.map Pending.op ⊆ l.pending.map Pending.op)
    (queued : ∀ buffer ∈ w.queue e.state, buffer ∈ w.queue l.state ∨ buffer ∈ l.posted)
    (started : ∀ write ∈ w.writes e.started, write.2 ∈ w.queue e.state) :
    w.Inv (l.after posted pending e) := by
  have queue : ∀ buffer ∈ w.queue e.state, w.ident buffer < l.calls := by
    intro buffer member
    rcases queued buffer member with before | now
    · exact inv.queued buffer before
    · exact inv.posted buffer now
  refine ⟨valid, disciplined, ?_, queue, ?_⟩
  · intro buffer member
    simp only [Loop.after, none, List.append_nil] at member
    exact inv.posted buffer (fewer member)
  · intro write member
    simp only [Loop.after, List.map_append, List.map_map, Function.comp_def, List.map_id',
      writes_append, List.mem_append] at member
    rcases member with before | now
    · refine inv.writing write ?_
      simp only [writes, List.mem_filterMap] at before ⊢
      obtain ⟨op, inside, isWrite⟩ := before
      exact ⟨op, rest inside, isWrite⟩
    · exact queue write.2 (started write now)

theorem inv_call {w : Writer party} (lawful : w.Lawful) {l : Loop σ ω β ρ} (inv : w.Inv l) (x : φ) :
    w.Inv { l.after l.posted l.pending (party.call l.calls l.state x) with calls := l.calls + 1 } := by
  obtain ⟨valid, kept, buffer, posted, fresh⟩ := lawful.call l.calls l.state x inv.valid
  have ops : (l.after l.posted l.pending (party.call l.calls l.state x)).pending.map Pending.op =
      l.pending.map Pending.op ++ (party.call l.calls l.state x).started := by
    simp [Loop.after, Function.comp_def]
  refine ⟨valid, ?_, ?_, ?_, ?_⟩
  · change (w.view (l.after l.posted l.pending (party.call l.calls l.state x))).Disciplined
    have new : ∀ other, w.ident other < l.calls → other ≠ buffer := by
      rintro other earlier rfl
      omega
    have disciplined := inv.disciplined.post buffer
      ⟨fun member => new _ (inv.posted _ member) rfl, fun member => new _ (inv.queued _ member) rfl,
        fun write member => new _ (inv.writing write member)⟩
    rw [view_after, posted, kept.queue, kept.epoch, kept.started, List.append_nil]
    exact disciplined
  · intro other member
    simp only [Loop.after, posted, List.mem_append, List.mem_singleton] at member
    rcases member with earlier | rfl
    · exact Nat.lt_succ_of_lt (inv.posted other earlier)
    · exact Nat.lt_succ_of_le (Nat.le_of_eq fresh)
  · intro other member
    simp only [Loop.after, kept.queue] at member
    exact Nat.lt_succ_of_lt (inv.queued other member)
  · intro write member
    rw [ops, writes_append, kept.started, List.append_nil] at member
    exact Nat.lt_succ_of_lt (inv.writing write member)

theorem inv_closure {w : Writer party} (lawful : w.Lawful) {l : Loop σ ω β ρ} (inv : w.Inv l)
    {i : Nat} {buffer : β} (here : l.posted[i]? = some buffer) :
    w.Inv (l.after (l.posted.eraseIdx i) l.pending (party.closure l.state buffer)) := by
  obtain ⟨valid, effect, none⟩ := lawful.closure l.state buffer inv.valid
  obtain ⟨before, after, split, erased⟩ := split_eraseIdx here
  rcases effect with kept | queued
  · refine inv.bounded valid ?_ (List.eraseIdx_subset) none (List.Subset.refl _) ?_ ?_
    · rw [view_after, none, erased, kept.queue, kept.epoch, kept.started, List.append_nil,
        List.append_nil]
      exact inv.disciplined.discard split
    · intro other member
      exact Or.inl (kept.queue ▸ member)
    · simp [kept.started]
  · refine inv.bounded valid ?_ (List.eraseIdx_subset) none (List.Subset.refl _) ?_ ?_
    · have disciplined := inv.disciplined.accept split
      rw [view_after, none, erased, queued.queue, queued.epoch, queued.started, List.append_nil]
      by_cases idle : w.queue l.state = []
      · simpa [view, idle] using disciplined
      · simpa [view, idle] using disciplined
    · intro other member
      rw [queued.queue, List.mem_append, List.mem_singleton] at member
      rcases member with earlier | rfl
      · exact Or.inl earlier
      · exact Or.inr (List.mem_of_getElem? here)
    · intro write member
      rw [queued.started] at member
      split at member
      next => simp [List.mem_singleton.mp member, queued.queue]
      next => simp at member

theorem inv_finish {w : Writer party} {l : Loop σ ω β ρ} (inv : w.Inv l) {i : Nat} {op : ω} {r : ρ}
    (here : l.pending[i]? = some { op, result := none }) :
    w.Inv { l with pending := l.pending.set i { op, result := some r } } := by
  have same := map_op_set here (some r)
  refine ⟨inv.valid, ?_, inv.posted, inv.queued, ?_⟩
  · simpa only [view, same] using inv.disciplined
  · simpa only [same] using inv.writing

theorem inv_handler {w : Writer party} (lawful : w.Lawful) {l : Loop σ ω β ρ} (inv : w.Inv l)
    {i : Nat} {op : ω} {r : ρ} {e : Effects σ ω β}
    (here : l.pending[i]? = some { op, result := some r })
    (same : ∀ write, w.write op = some write → w.succeeded r = true → write.1 = w.epoch l.state)
    (handled : party.handler l.state op r = some e) :
    w.Inv (l.after l.posted (l.pending.eraseIdx i) e) := by
  obtain ⟨before, after, split, erased⟩ := split_eraseIdx here
  have fewer : (l.pending.eraseIdx i).map Pending.op ⊆ l.pending.map Pending.op :=
    List.map_subset _ List.eraseIdx_subset
  have inFlight : (w.view l).inFlight =
      w.writes (before.map Pending.op) ++ w.writes (op :: after.map Pending.op) := by
    simp [view, split]
  have rest : w.writes ((l.pending.eraseIdx i).map Pending.op) =
      w.writes (before.map Pending.op) ++ w.writes (after.map Pending.op) := by
    simp [erased]
  by_cases finishes : (w.write op).isSome = true ∧ w.succeeded r = true
  · obtain ⟨isWrite, succeeded⟩ := finishes
    obtain ⟨⟨n, buffer⟩, given⟩ := Option.isSome_iff_exists.mp isWrite
    obtain rfl : n = w.epoch l.state := same _ given succeeded
    obtain ⟨valid, finished, none⟩ := lawful.finish _ _ _ _ _ inv.valid given succeeded rfl handled
    rw [w.writes_cons_some given] at inFlight
    refine inv.bounded valid ?_ (List.Subset.refl _) none fewer ?_ ?_
    · rw [view_after, none, finished.queue, finished.epoch, finished.started, rest, List.append_nil]
      exact inv.disciplined.finish inFlight
    · intro other member
      rw [finished.queue] at member
      exact Or.inl (List.mem_of_mem_tail member)
    · intro write member
      rw [finished.started, WriteQueue.front, List.mem_map] at member
      obtain ⟨other, first, rfl⟩ := member
      rw [finished.queue]
      exact List.mem_of_mem_head? (Option.mem_toList.mp first)
  · have otherwise : w.write op = none ∨ w.succeeded r = false := by
      rcases not_and_or.mp finishes with noWrite | failed
      · exact Or.inl (by simpa using noWrite)
      · exact Or.inr (by simpa using failed)
    obtain ⟨valid, effect, none⟩ := lawful.other _ _ _ _ inv.valid otherwise handled
    rcases effect with cleared | ⟨kept, old⟩
    · refine inv.bounded valid ?_ (List.Subset.refl _) none fewer ?_ ?_
      · rw [view_after, none, cleared.queue, cleared.epoch, cleared.started, List.append_nil,
          List.append_nil]
        refine inv.disciplined.clear ?_
        intro write member
        simp only [writes, List.mem_filterMap] at member
        obtain ⟨other, inside, given⟩ := member
        simp only [view, writes, List.mem_filterMap]
        exact ⟨other, fewer inside, given⟩
      · simp [cleared.queue]
      · simp [cleared.started]
    · refine inv.bounded valid ?_ (List.Subset.refl _) none fewer ?_ ?_
      · rw [view_after, none, kept.queue, kept.epoch, kept.started, rest, List.append_nil,
          List.append_nil]
        cases given : w.write op with
        | none =>
          rw [w.writes_cons_none given] at inFlight
          rw [← inFlight]
          exact inv.disciplined
        | some write =>
          rw [w.writes_cons_some given] at inFlight
          refine inv.disciplined.forget inFlight ?_
          rcases old write given with other | empty
          · exact other
          · -- With nothing queued no write of this epoch is in progress.
            intro now
            have member : write ∈ (w.view l).inFlight := by simp [inFlight]
            have first := (inv.disciplined.front_iff member).mpr now
            simp [view, empty] at first
      · intro other member
        exact Or.inl (kept.queue ▸ member)
      · simp [kept.started]

theorem inv_step {w : Writer party} (lawful : w.Lawful) (l : Loop σ ω β ρ) (a : Action ρ φ)
    (l' : Loop σ ω β ρ) (inv : w.Inv l) (same : w.SameEpoch l a) (taken : step party l a = .next l') :
    w.Inv l' := by
  cases a with
  | call x =>
    cases taken
    exact inv_call lawful inv x
  | closure i =>
    simp only [step] at taken
    split at taken
    next => contradiction
    next here =>
      cases taken
      exact inv_closure lawful inv here
  | finish i r =>
    simp only [step] at taken
    split at taken
    next op here =>
      split at taken
      next =>
        cases taken
        exact inv_finish inv here
      next => contradiction
    next => contradiction
  | handler i =>
    simp only [step] at taken
    split at taken
    next op r here =>
      split at taken
      next => contradiction
      next e handled =>
        cases taken
        refine inv_handler lawful inv here ?_ handled
        intro write given succeeded
        exact same write ⟨i, op, r, rfl, here, given, succeeded⟩
    next => contradiction

-- Along a run, successful writes find their buffers as long as no queue was cleared under one.
theorem along_findsItsBuffer_iff {w : Writer party} (lawful : w.Lawful) {l : Loop σ ω β ρ}
    (start : w.Inv l) (actions : List (Action ρ φ)) :
    Machine.Along (step party) w.FindsItsBuffer l actions ↔
      Machine.Along (step party) w.SameEpoch l actions :=
  Machine.along_iff (fun _ a inv => w.findsItsBuffer_iff inv a) (inv_step lawful) start actions

end Writer

end EventLoop
