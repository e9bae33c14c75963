import Mathlib.Data.Nat.ModEq
import ExnGs.Lib.BoundedFifo
import ExnGs.Lib.Machine

set_option autoImplicit false

-- One thread calls `try_push` and one calls `try_pop`; every access to what they share is a step.
namespace ExnGs.Sim

open Machine BoundedFifo

-- Where the producer is in `try_push`: what it has loaded, and what it has still to do.
inductive Pushing (α : Type)
  | idle
  | called (v : α)
  | loadedHead (v : α) (h : Nat)
  | checked (v : α) (h : Nat)
  | written (v : α) (h : Nat)
  deriving DecidableEq, Repr

inductive Popping (α : Type)
  | idle
  | called
  | loadedTail (t : Nat)
  | checked (t : Nat)
  | read (t : Nat) (out : α)
  deriving DecidableEq, Repr

structure RingQueue (α : Type) (N : Nat) where
  buf : Vector α N
  head : Nat := 0
  tail : Nat := 0
  producer : Pushing α := .idle
  consumer : Popping α := .idle
  history : List (Event α) := []

inductive RingAction (α : Type)
  | callPush (v : α)
  | producer
  | callPop
  | consumer
  deriving DecidableEq, Repr

namespace RingQueue

variable {α : Type} {N : Nat}

def tryPush (s : RingQueue α N) : Outcome (RingQueue α N) :=
  match s.producer with
  | .idle => .disabled
  | .called v => .next { s with producer := .loadedHead v s.head }
  | .loadedHead v h =>
    -- The load of `tail_`.
    if (h + 1) % N = s.tail then
      .next { s with producer := .idle, history := s.history ++ [.full v] }
    else .next { s with producer := .checked v h }
  | .checked v h =>
    if inside : h < N then .next { s with buf := s.buf.set h v, producer := .written v h }
    else .undefined
  | .written v h =>
    .next { s with
      head := (h + 1) % N
      producer := .idle
      history := s.history ++ [.pushed v] }

def tryPop (s : RingQueue α N) : Outcome (RingQueue α N) :=
  match s.consumer with
  | .idle => .disabled
  | .called => .next { s with consumer := .loadedTail s.tail }
  | .loadedTail t =>
    -- The load of `head_`.
    if t = s.head then .next { s with consumer := .idle, history := s.history ++ [.empty] }
    else .next { s with consumer := .checked t }
  | .checked t =>
    if inside : t < N then .next { s with consumer := .read t s.buf[t] } else .undefined
  | .read t out =>
    .next { s with
      tail := (t + 1) % N
      consumer := .idle
      history := s.history ++ [.popped out] }

def step (s : RingQueue α N) : RingAction α → Outcome (RingQueue α N)
  | .callPush v =>
    match s.producer with
    | .idle => .next { s with producer := .called v }
    | _ => .disabled
  | .producer => s.tryPush
  | .callPop =>
    match s.consumer with
    | .idle => .next { s with consumer := .called }
    | _ => .disabled
  | .consumer => s.tryPop

-- What the producer knows of the elements held.
def ProducerKnows (s : RingQueue α N) (held : List α) : Prop :=
  match s.producer with
  | .idle | .called _ => True
  | .loadedHead _ h => h = s.head
  | .checked _ h => h = s.head ∧ held.length < N - 1
  | .written v h => h = s.head ∧ held.length < N - 1 ∧ s.buf[h]? = some v

def ConsumerKnows (s : RingQueue α N) (held : List α) : Prop :=
  match s.consumer with
  | .idle | .called => True
  | .loadedTail t => t = s.tail
  | .checked t => t = s.tail ∧ held ≠ []
  | .read t out => t = s.tail ∧ held.head? = some out

/-- The elements held are in the slots from `tail_` up to `head_`, round the end of the buffer. -/
structure Holds (s : RingQueue α N) (q : BoundedFifo α (N - 1)) : Prop where
  tail : s.tail < N
  head : s.head = (s.tail + q.contents.length) % N
  slots : ∀ i, i < q.contents.length → s.buf[(s.tail + i) % N]? = q.contents[i]?
  producer : s.ProducerKnows q.contents
  consumer : s.ConsumerKnows q.contents

theorem slot_ne {t i j : Nat} (first : i < N) (second : j < N) (differ : i ≠ j) :
    (t + i) % N ≠ (t + j) % N := by
  intro same
  have cancelled : i % N = j % N := Nat.ModEq.add_left_cancel' t same
  rw [Nat.mod_eq_of_lt first, Nat.mod_eq_of_lt second] at cancelled
  exact differ cancelled

theorem head_ne_slot {s : RingQueue α N} {q : BoundedFifo α (N - 1)} (holds : s.Holds q)
    {i : Nat} (live : i < q.contents.length) : s.head ≠ (s.tail + i) % N := by
  have bounded := q.bounded
  have := holds.tail
  rw [holds.head]
  exact slot_ne (by omega) (by omega) (by omega)

-- The producer's check of the indices tells whether the queue is full.
theorem full_iff {s : RingQueue α N} {q : BoundedFifo α (N - 1)} (holds : s.Holds q) :
    (s.head + 1) % N = s.tail ↔ q.contents.length = N - 1 := by
  have bounded := q.bounded
  have := holds.tail
  have next : (s.head + 1) % N = (s.tail + (q.contents.length + 1)) % N := by
    rw [holds.head, Nat.mod_add_mod]
    rfl
  rw [next]
  constructor
  · intro same
    by_contra room
    have differ : (s.tail + (q.contents.length + 1)) % N ≠ (s.tail + 0) % N :=
      slot_ne (by omega) (by omega) (by omega)
    rw [same, Nat.add_zero, Nat.mod_eq_of_lt holds.tail] at differ
    exact differ rfl
  · intro full
    rw [full, Nat.sub_add_cancel (by omega), Nat.add_mod_right, Nat.mod_eq_of_lt holds.tail]

theorem empty_iff {s : RingQueue α N} {q : BoundedFifo α (N - 1)} (holds : s.Holds q) :
    s.tail = s.head ↔ q.contents = [] := by
  constructor
  · intro same
    by_contra some
    have live : 0 < q.contents.length := List.length_pos_iff.mpr some
    apply head_ne_slot holds live
    rw [Nat.add_zero, Nat.mod_eq_of_lt holds.tail, same]
  · intro none
    rw [holds.head, none, List.length_nil, Nat.add_zero, Nat.mod_eq_of_lt holds.tail]

-- A step is one of the abstract queue, or none of its.
def Follows (s : RingQueue α N) (q : BoundedFifo α (N - 1)) (t : RingQueue α N) : Prop :=
  (t.history = s.history ∧ t.Holds q) ∨
    ∃ e q', t.history = s.history ++ [e] ∧ Step q e q' ∧ t.Holds q'

theorem write_follows {s : RingQueue α N} {q : BoundedFifo α (N - 1)} (holds : s.Holds q) (v : α)
    (inside : s.head < N) (room : q.contents.length < N - 1) :
    Holds { s with buf := s.buf.set s.head v, producer := .written v s.head } q where
  tail := holds.tail
  head := holds.head
  slots i live := by
    have apart := head_ne_slot holds live
    rw [← holds.slots i live]
    simp [apart]
  producer := ⟨rfl, room, by simp⟩
  consumer := holds.consumer

theorem push_follows {s : RingQueue α N} {q : BoundedFifo α (N - 1)} (holds : s.Holds q) {v : α}
    (room : q.contents.length < N - 1) (slot : s.buf[s.head]? = some v) (history : List (Event α)) :
    Holds { s with head := (s.head + 1) % N, producer := .idle, history } (q.push v room) where
  tail := holds.tail
  head := by
    rw [contents_push, List.length_append, List.length_singleton, ← Nat.add_assoc, holds.head]
    exact Nat.mod_add_mod _ _ _
  slots i live := by
    rw [contents_push, List.length_append, List.length_singleton] at live
    by_cases old : i < q.contents.length
    · rw [contents_push, List.getElem?_append_left old]
      exact holds.slots i old
    · have last : i = q.contents.length := by omega
      rw [last, contents_push, List.getElem?_concat_length, ← slot, holds.head]
  producer := trivial
  consumer := by
    have knows := holds.consumer
    unfold ConsumerKnows at knows ⊢
    simp only
    split
    next => trivial
    next => trivial
    next t at_ =>
      rw [at_] at knows
      exact knows
    next t at_ =>
      rw [at_] at knows
      exact ⟨knows.1, by simp⟩
    next t out at_ =>
      rw [at_] at knows
      refine ⟨knows.1, ?_⟩
      rw [contents_push, List.head?_append, knows.2]
      rfl

theorem pop_follows {s : RingQueue α N} {q : BoundedFifo α (N - 1)} (holds : s.Holds q) {out : α}
    (front : q.contents.head? = some out) (history : List (Event α)) :
    Holds { s with tail := (s.tail + 1) % N, consumer := .idle, history } q.pop where
  tail := Nat.mod_lt _ (Nat.lt_of_le_of_lt (Nat.zero_le _) holds.tail)
  head := by
    obtain ⟨rest, shape⟩ := List.head?_eq_some_iff.mp front
    have head := holds.head
    rw [shape, List.length_cons] at head
    rw [contents_pop, shape, List.tail_cons, Nat.mod_add_mod]
    simp only [head]
    congr 1
    omega
  slots i live := by
    rw [contents_pop, List.length_tail] at live
    rw [contents_pop, List.getElem?_tail, ← holds.slots (i + 1) (by omega)]
    simp only [Nat.mod_add_mod]
    congr 2
    omega
  producer := by
    have knows := holds.producer
    have fewer : q.contents.tail.length ≤ q.contents.length := by
      rw [List.length_tail]
      exact Nat.sub_le _ _
    unfold ProducerKnows at knows ⊢
    simp only [contents_pop]
    split
    next => trivial
    next => trivial
    next v h at_ =>
      rw [at_] at knows
      exact knows
    next v h at_ =>
      rw [at_] at knows
      exact ⟨knows.1, Nat.lt_of_le_of_lt fewer knows.2⟩
    next v h at_ =>
      rw [at_] at knows
      exact ⟨knows.1, Nat.lt_of_le_of_lt fewer knows.2.1, knows.2.2⟩
  consumer := trivial

theorem tryPush_follows {s : RingQueue α N} {q : BoundedFifo α (N - 1)} (holds : s.Holds q)
    (busy : s.producer ≠ .idle) : ∃ t, s.tryPush = .next t ∧ s.Follows q t := by
  have knows := holds.producer
  have consumer := holds.consumer
  unfold ProducerKnows at knows
  unfold tryPush
  cases stage : s.producer with
  | idle => exact absurd stage busy
  | called v =>
    exact ⟨_, rfl, .inl ⟨rfl, holds.tail, holds.head, holds.slots, rfl, consumer⟩⟩
  | loadedHead v h =>
    simp only [stage] at knows ⊢
    rw [knows]
    split
    next wrapped =>
      have full := (full_iff holds).mp wrapped
      exact ⟨_, rfl, .inr ⟨_, q, rfl, .full v full, holds.tail, holds.head, holds.slots, trivial, consumer⟩⟩
    next room =>
      have fewer : q.contents.length < N - 1 :=
        Nat.lt_of_le_of_ne q.bounded fun full => room ((full_iff holds).mpr full)
      exact ⟨_, rfl, .inl ⟨rfl, holds.tail, holds.head, holds.slots, ⟨rfl, fewer⟩, consumer⟩⟩
  | checked v h =>
    simp only [stage] at knows ⊢
    obtain ⟨rfl, room⟩ := knows
    have inside : s.head < N := by
      rw [holds.head]
      exact Nat.mod_lt _ (Nat.lt_of_le_of_lt (Nat.zero_le _) holds.tail)
    rw [dif_pos inside]
    exact ⟨_, rfl, .inl ⟨rfl, write_follows holds v inside room⟩⟩
  | written v h =>
    simp only [stage] at knows ⊢
    obtain ⟨rfl, room, slot⟩ := knows
    exact ⟨_, rfl, .inr ⟨_, q.push v room, rfl, .pushed v room, push_follows holds room slot _⟩⟩

theorem tryPop_follows {s : RingQueue α N} {q : BoundedFifo α (N - 1)} (holds : s.Holds q)
    (busy : s.consumer ≠ .idle) : ∃ t, s.tryPop = .next t ∧ s.Follows q t := by
  have knows := holds.consumer
  have producer := holds.producer
  unfold ConsumerKnows at knows
  unfold tryPop
  cases stage : s.consumer with
  | idle => exact absurd stage busy
  | called =>
    exact ⟨_, rfl, .inl ⟨rfl, holds.tail, holds.head, holds.slots, producer, rfl⟩⟩
  | loadedTail t =>
    simp only [stage] at knows ⊢
    rw [knows]
    split
    next same =>
      have none := (empty_iff holds).mp same
      exact ⟨_, rfl, .inr ⟨_, q, rfl, .empty none, holds.tail, holds.head, holds.slots, producer, trivial⟩⟩
    next differ =>
      have some : q.contents ≠ [] := fun none => differ ((empty_iff holds).mpr none)
      exact ⟨_, rfl, .inl ⟨rfl, holds.tail, holds.head, holds.slots, producer, ⟨rfl, some⟩⟩⟩
  | checked t =>
    simp only [stage] at knows ⊢
    obtain ⟨rfl, some⟩ := knows
    have inside := holds.tail
    rw [dif_pos inside]
    have front : q.contents.head? = .some s.buf[s.tail] := by
      have slot := holds.slots 0 (List.length_pos_iff.mpr some)
      rw [Nat.add_zero, Nat.mod_eq_of_lt holds.tail] at slot
      rw [List.head?_eq_getElem?, ← slot]
      exact Vector.getElem?_eq_getElem holds.tail
    exact ⟨_, rfl, .inl ⟨rfl, holds.tail, holds.head, holds.slots, producer, ⟨rfl, front⟩⟩⟩
  | read t out =>
    simp only [stage] at knows ⊢
    obtain ⟨rfl, front⟩ := knows
    exact ⟨_, rfl, .inr ⟨_, q.pop, rfl, .popped out front, pop_follows holds front _⟩⟩

theorem step_follows {s : RingQueue α N} {q : BoundedFifo α (N - 1)} (holds : s.Holds q)
    (a : RingAction α) : s.step a = .disabled ∨ ∃ t, s.step a = .next t ∧ s.Follows q t := by
  cases a with
  | callPush v =>
    cases stage : s.producer with
    | idle =>
      right
      refine ⟨{ s with producer := .called v }, by simp [step, stage], .inl ⟨rfl, ?_⟩⟩
      exact ⟨holds.tail, holds.head, holds.slots, trivial, holds.consumer⟩
    | _ => exact .inl (by simp [step, stage])
  | producer =>
    by_cases busy : s.producer = .idle
    · exact .inl (by simp [step, tryPush, busy])
    · exact .inr (tryPush_follows holds busy)
  | callPop =>
    cases stage : s.consumer with
    | idle =>
      right
      refine ⟨{ s with consumer := .called }, by simp [step, stage], .inl ⟨rfl, ?_⟩⟩
      exact ⟨holds.tail, holds.head, holds.slots, holds.producer, trivial⟩
    | _ => exact .inl (by simp [step, stage])
  | consumer =>
    by_cases busy : s.consumer = .idle
    · exact .inl (by simp [step, tryPop, busy])
    · exact .inr (tryPop_follows holds busy)

def initial (buf : Vector α N) : RingQueue α N := { buf }

-- A bounded queue has told the threads the same, and holds what is in the buffer.
def Refines (s : RingQueue α N) : Prop :=
  ∃ q : BoundedFifo α (N - 1), Runs s.history q ∧ s.Holds q

theorem reaches_refines (positive : 0 < N) (buf : Vector α N) {s : RingQueue α N}
    (reached : Reaches step (fun _ _ => True) (initial buf) s) :
    s.Refines := by
  refine reached.invariant ?_ ?_
  · rintro s a t ⟨q, runs, holds⟩ - taken
    rcases step_follows holds a with off | ⟨t', next, followed⟩
    · rw [off] at taken
      cases taken
    · rw [next] at taken
      cases taken
      rcases followed with ⟨same, holds⟩ | ⟨e, q', grown, step, holds⟩
      · exact ⟨q, same ▸ runs, holds⟩
      · exact ⟨q', grown ▸ runs.snoc step, holds⟩
  · refine ⟨empty, .start, positive, ?_, ?_, trivial, trivial⟩
    · exact (Nat.zero_mod N).symm
    · intro i live
      cases live

-- A push that has loaded both indices fails, or a pop.
def PushFails (s : RingQueue α N) (v : α) : Prop :=
  ∃ t, s.tryPush = .next t ∧ t.history = s.history ++ [.full v]

def PopFails (s : RingQueue α N) : Prop := ∃ t, s.tryPop = .next t ∧ t.history = s.history ++ [.empty]

theorem pushFails_iff {s : RingQueue α N} {q : BoundedFifo α (N - 1)} (holds : s.Holds q) {v : α} {h : Nat}
    (stage : s.producer = .loadedHead v h) : s.PushFails v ↔ q.contents.length = N - 1 := by
  have knows := holds.producer
  simp only [ProducerKnows, stage] at knows
  rw [← full_iff holds, PushFails, tryPush, stage, knows]
  simp only
  split
  next wrapped => simp [wrapped]
  next room => simp [room]

theorem popFails_iff {s : RingQueue α N} {q : BoundedFifo α (N - 1)} (holds : s.Holds q) {t : Nat}
    (stage : s.consumer = .loadedTail t) : s.PopFails ↔ q.contents = [] := by
  have knows := holds.consumer
  simp only [ConsumerKnows, stage] at knows
  rw [← empty_iff holds, PopFails, tryPop, stage, knows]
  simp only
  split
  next same => simp [same]
  next differ => simp [differ]

-- A call that nothing of the other side comes between, and how it ends.
def PushAlone (s : RingQueue α N) (v : α) (e : Event α) : Prop :=
  ∃ n t, run step s (.callPush v :: List.replicate n .producer) = some t ∧ t.producer = .idle ∧
    t.history = s.history ++ [e]

def PopAlone (s : RingQueue α N) (e : Event α) : Prop :=
  ∃ n t, run step s (.callPop :: List.replicate n .consumer) = some t ∧ t.consumer = .idle ∧
    t.history = s.history ++ [e]

theorem push_alone {s : RingQueue α N} {q : BoundedFifo α (N - 1)} (holds : s.Holds q)
    (idle : s.producer = .idle) (v : α) :
    s.PushAlone v (if q.contents.length = N - 1 then .full v else .pushed v) := by
  split
  next full =>
    have wrapped := (full_iff holds).mpr full
    exact ⟨2, { s with producer := .idle, history := s.history ++ [.full v] },
      by simp [run, step, tryPush, idle, wrapped, List.replicate], rfl, rfl⟩
  next room =>
    have apart : (s.head + 1) % N ≠ s.tail := fun wrapped => room ((full_iff holds).mp wrapped)
    have inside : s.head < N := by
      rw [holds.head]
      exact Nat.mod_lt _ (Nat.lt_of_le_of_lt (Nat.zero_le _) holds.tail)
    refine ⟨4, { s with
        buf := s.buf.set s.head v, head := (s.head + 1) % N, producer := .idle,
        history := s.history ++ [.pushed v] }, ?_, rfl, rfl⟩
    simp [run, step, tryPush, idle, apart, inside, List.replicate]

theorem pop_alone {s : RingQueue α N} {q : BoundedFifo α (N - 1)} (holds : s.Holds q)
    (idle : s.consumer = .idle) :
    s.PopAlone (match q.contents with | [] => .empty | v :: _ => .popped v) := by
  cases held : q.contents with
  | nil =>
    have same := (empty_iff holds).mpr held
    exact ⟨2, { s with consumer := .idle, history := s.history ++ [.empty] },
      by simp [run, step, tryPop, idle, same, List.replicate], rfl, rfl⟩
  | cons v rest =>
    have differ : s.tail ≠ s.head := by
      intro same
      rw [(empty_iff holds).mp same] at held
      cases held
    have inside := holds.tail
    have front : s.buf[s.tail] = v := by
      have slot := holds.slots 0 (by simp [held])
      rw [Nat.add_zero, Nat.mod_eq_of_lt inside, held] at slot
      rw [Vector.getElem?_eq_getElem inside] at slot
      simpa using slot
    refine ⟨4, { s with
        tail := (s.tail + 1) % N, consumer := .idle, history := s.history ++ [.popped v] }, ?_, rfl, rfl⟩
    simp [run, step, tryPop, idle, differ, inside, front, List.replicate]

/-- What the two threads are told is what a bounded queue tells, whatever the interleaving. -/
theorem ring_refines_fifo (positive : 0 < N) (buf : Vector α N) (s : RingQueue α N)
    (reached : Reaches step (fun _ _ => True) (initial buf) s) :
    (∀ a, s.step a ≠ .undefined) ∧
    ∃ q : BoundedFifo α (N - 1), Runs s.history q ∧
      pushes s.history = pops s.history ++ q.contents ∧
      q.contents.length ≤ N - 1 ∧
      (∀ v h, s.producer = .loadedHead v h → (s.PushFails v ↔ q.contents.length = N - 1)) ∧
      (∀ t, s.consumer = .loadedTail t → (s.PopFails ↔ q.contents = [])) ∧
      (∀ v, s.producer = .idle →
        s.PushAlone v (if q.contents.length = N - 1 then .full v else .pushed v)) ∧
      (s.consumer = .idle →
        s.PopAlone (match q.contents with | [] => .empty | v :: _ => .popped v)) := by
  obtain ⟨q, runs, holds⟩ := reaches_refines positive buf reached
  refine ⟨fun a => ?_, q, runs, runs.conserved, q.bounded, ?_, ?_, ?_, ?_⟩
  · rcases step_follows holds a with off | ⟨t, next, -⟩
    · simp [off]
    · simp [next]
  · exact fun v h stage => pushFails_iff holds stage
  · exact fun t stage => popFails_iff holds stage
  · exact fun v idle => push_alone holds idle v
  · exact fun idle => pop_alone holds idle

-- Three slots, one of which is always free: the third push fails, and is made again while the
-- consumer takes out what is before it.
def wrapping : List (RingAction Nat) :=
  [.callPush 1, .producer, .producer, .producer, .producer,
    .callPush 2, .producer, .producer, .producer, .producer,
    .callPush 3, .producer, .producer,
    .callPop, .consumer, .consumer, .consumer, .consumer,
    .callPush 3, .producer, .callPop, .consumer, .producer, .consumer, .producer, .consumer,
    .producer, .consumer]

theorem ring_refines_fifo_wrapping :
    ∃ (s : RingQueue Nat 3) (q : BoundedFifo Nat 2), run step (initial (Vector.replicate 3 0)) wrapping = some s ∧
      s.history = [.pushed 1, .pushed 2, .full 3, .popped 1, .pushed 3, .popped 2] ∧
      Runs s.history q ∧ q.contents = [3] := by
  have ran : (run step (initial (Vector.replicate 3 0)) wrapping).map RingQueue.history =
      some [.pushed 1, .pushed 2, .full 3, .popped 1, .pushed 3, .popped 2] := by decide +kernel
  obtain ⟨s, reached, told⟩ := Option.map_eq_some_iff.mp ran
  obtain ⟨-, q, runs, conserved, -⟩ := ring_refines_fifo (by decide) _ s
    (reaches_of_along (by decide +kernel) reached)
  rw [told] at conserved
  have held : [1, 2] ++ [3] = [1, 2] ++ q.contents := conserved
  exact ⟨s, q, reached, told, runs, (List.append_cancel_left held).symm⟩

end RingQueue

end ExnGs.Sim
