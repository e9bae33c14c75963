import Mathlib.Data.List.Induction
import ExnGs.Lib.BoundedFifo
import ExnGs.Lib.Machine

set_option autoImplicit false

-- Two workers in a row, with a bounded queue behind each of them. A worker that finds its queue full
-- waits, and takes nothing new before it has put away all that it has made.
namespace Pipeline

/-- What a worker makes of one input. It is given only what it accepts. -/
structure Stage (σ α β : Type) where
  accepts : σ → α → Bool
  work : σ → α → σ × List β

namespace Stage

variable {σ α β : Type} (stage : Stage σ α β)

def run : σ → List α → σ × List β
  | s, [] => (s, [])
  | s, x :: rest =>
    let now := stage.work s x
    let later := run now.1 rest
    (later.1, now.2 ++ later.2)

@[simp] theorem run_nil (s : σ) : stage.run s [] = (s, []) := rfl

theorem run_cons (s : σ) (x : α) (rest : List α) :
    stage.run s (x :: rest) = ((stage.run (stage.work s x).1 rest).1,
      (stage.work s x).2 ++ (stage.run (stage.work s x).1 rest).2) := rfl

theorem run_append (s : σ) (xs ys : List α) :
    stage.run s (xs ++ ys) = ((stage.run (stage.run s xs).1 ys).1,
      (stage.run s xs).2 ++ (stage.run (stage.run s xs).1 ys).2) := by
  induction xs generalizing s with
  | nil => rfl
  | cons x xs ih => rw [List.cons_append, run_cons, run_cons, ih, List.append_assoc]

theorem run_concat (s : σ) (xs : List α) (x : α) :
    stage.run s (xs ++ [x]) = ((stage.work (stage.run s xs).1 x).1,
      (stage.run s xs).2 ++ (stage.work (stage.run s xs).1 x).2) := by
  rw [run_append, run_cons, run_nil, List.append_nil]

-- Inputs each of which is accepted when its turn comes.
def Accepted : σ → List α → Prop
  | _, [] => True
  | s, x :: rest => stage.accepts s x = true ∧ Accepted (stage.work s x).1 rest

instance decidableAccepted : ∀ s xs, Decidable (stage.Accepted s xs)
  | _, [] => .isTrue trivial
  | s, x :: rest =>
    have _later : Decidable (stage.Accepted (stage.work s x).1 rest) := decidableAccepted _ rest
    inferInstanceAs (Decidable (_ ∧ _))

theorem accepted_concat (s : σ) (xs : List α) (x : α) :
    stage.Accepted s (xs ++ [x]) ↔
      stage.Accepted s xs ∧ stage.accepts (stage.run s xs).1 x = true := by
  induction xs generalizing s with
  | nil => exact ⟨fun both => ⟨trivial, both.1⟩, fun both => ⟨both.2, trivial⟩⟩
  | cons y ys ih =>
    rw [List.cons_append]
    simp only [Accepted, ih, run_cons, and_assoc]

-- The invariant may speak of the inputs and of what has been made of them.
theorem run_invariant {stage : Stage σ α β} {motive : List α → σ → List β → Prop} {s : σ}
    (start : motive [] s [])
    (each : ∀ xs x t made, motive xs t made → stage.accepts t x = true →
      motive (xs ++ [x]) (stage.work t x).1 (made ++ (stage.work t x).2))
    {xs : List α} (accepted : stage.Accepted s xs) :
    motive xs (stage.run s xs).1 (stage.run s xs).2 := by
  induction xs using List.reverseRecOn with
  | nil => exact start
  | append_singleton xs x ih =>
    obtain ⟨before, may⟩ := (stage.accepted_concat s xs x).mp accepted
    rw [run_concat]
    exact each xs x _ _ (ih before) may

end Stage

structure Line (σ τ α β γ : Type) (m n : Nat) where
  first : σ
  -- What the first worker has still to put into its queue.
  leaving : List β := []
  between : BoundedFifo β m := .empty
  second : τ
  finishing : List γ := []
  after : BoundedFifo γ n := .empty
  -- History: what the first worker was given, what the second took, and what was taken from it.
  given : List α := []
  passed : List β := []
  taken : List γ := []

inductive Action (α : Type)
  | give (x : α)
  | send
  | pass
  | finish
  | take
  deriving DecidableEq, Repr

-- All but the arrival of something new.
def Action.isInner {α : Type} : Action α → Bool
  | .give _ => false
  | _ => true

variable {σ τ α β γ : Type} {m n : Nat}

namespace Line

def step (f : Stage σ α β) (g : Stage τ β γ) (l : Line σ τ α β γ m n) :
    Action α → Outcome (Line σ τ α β γ m n)
  | .give x =>
    if l.leaving = [] ∧ f.accepts l.first x = true then
      let made := f.work l.first x
      .next { l with first := made.1, leaving := made.2, given := l.given ++ [x] }
    else .disabled
  | .send =>
    match l.leaving with
    | [] => .disabled
    | y :: rest =>
      if room : l.between.contents.length < m then
        .next { l with leaving := rest, between := l.between.push y room }
      else .disabled
  | .pass =>
    match l.between.contents with
    | [] => .disabled
    | y :: _ =>
      if l.finishing = [] ∧ g.accepts l.second y = true then
        let made := g.work l.second y
        .next { l with
          between := l.between.pop
          second := made.1
          finishing := made.2
          passed := l.passed ++ [y] }
      else .disabled
  | .finish =>
    match l.finishing with
    | [] => .disabled
    | z :: rest =>
      if room : l.after.contents.length < n then
        .next { l with finishing := rest, after := l.after.push z room }
      else .disabled
  | .take =>
    match l.after.contents with
    | [] => .disabled
    | z :: _ => .next { l with after := l.after.pop, taken := l.taken ++ [z] }

def start (s : σ) (t : τ) : Line σ τ α β γ m n := { first := s, second := t }

/-- Where everything is that has been made so far. -/
structure Tracks (f : Stage σ α β) (g : Stage τ β γ) (s : σ) (t : τ) (l : Line σ τ α β γ m n) :
    Prop where
  accepted : f.Accepted s l.given
  first : f.run s l.given = (l.first, l.passed ++ l.between.contents ++ l.leaving)
  second : g.run t l.passed = (l.second, l.taken ++ l.after.contents ++ l.finishing)

-- The steps that are left before everything has been taken, if nothing new arrives.
def left (g : Stage τ β γ) (l : Line σ τ α β γ m n) : Nat :=
  2 * l.leaving.length + l.between.contents.length + 2 * l.finishing.length +
    l.after.contents.length +
    2 * (g.run l.second (l.between.contents ++ l.leaving)).2.length

variable {f : Stage σ α β} {g : Stage τ β γ} {s : σ} {t : τ} {l l' : Line σ τ α β γ m n}

/-- What each step does, in terms of what was in the queues. -/
inductive Stepped (f : Stage σ α β) (g : Stage τ β γ) (l : Line σ τ α β γ m n) :
    Action α → Line σ τ α β γ m n → Prop
  | gave (x : α) (idle : l.leaving = []) (may : f.accepts l.first x = true) :
      Stepped f g l (.give x) { l with
        first := (f.work l.first x).1, leaving := (f.work l.first x).2, given := l.given ++ [x] }
  | sent {y : β} {rest : List β} (leaving : l.leaving = y :: rest)
      (room : l.between.contents.length < m) :
      Stepped f g l .send { l with leaving := rest, between := l.between.push y room }
  | passed {y : β} {rest : List β} (queued : l.between.contents = y :: rest)
      (idle : l.finishing = []) :
      Stepped f g l .pass { l with
        between := l.between.pop, second := (g.work l.second y).1
        finishing := (g.work l.second y).2, passed := l.passed ++ [y] }
  | finished {z : γ} {rest : List γ} (finishing : l.finishing = z :: rest)
      (room : l.after.contents.length < n) :
      Stepped f g l .finish { l with finishing := rest, after := l.after.push z room }
  | taken {z : γ} {rest : List γ} (queued : l.after.contents = z :: rest) :
      Stepped f g l .take { l with after := l.after.pop, taken := l.taken ++ [z] }

theorem step_stepped {a : Action α} (taken : l.step f g a = .next l') : l.Stepped f g a l' := by
  cases a with
  | give x =>
    simp only [step] at taken
    split at taken
    next free => cases taken; exact .gave x free.1 free.2
    next => cases taken
  | send =>
    simp only [step] at taken
    split at taken
    next => cases taken
    next y rest leaving =>
      split at taken
      next room => cases taken; exact .sent leaving room
      next => cases taken
  | pass =>
    simp only [step] at taken
    split at taken
    next => cases taken
    next y rest queued =>
      split at taken
      next free => cases taken; exact .passed queued free.1
      next => cases taken
  | finish =>
    simp only [step] at taken
    split at taken
    next => cases taken
    next z rest finishing =>
      split at taken
      next room => cases taken; exact .finished finishing room
      next => cases taken
  | take =>
    simp only [step] at taken
    split at taken
    next => cases taken
    next z rest queued => cases taken; exact .taken queued

theorem Tracks.step {a : Action α} (tracks : l.Tracks f g s t) (taken : l.step f g a = .next l') :
    l'.Tracks f g s t := by
  obtain ⟨accepted, first, second⟩ := tracks
  cases step_stepped taken with
  | gave x idle may =>
    rw [idle, List.append_nil] at first
    refine ⟨(f.accepted_concat _ _ _).mpr ⟨accepted, ?_⟩, ?_, second⟩
    · rw [first]
      exact may
    · rw [Stage.run_concat, first]
  | sent leaving room =>
    refine ⟨accepted, ?_, second⟩
    rw [first, leaving, BoundedFifo.contents_push]
    simp
  | @passed y rest queued idle =>
    rw [idle, List.append_nil] at second
    refine ⟨accepted, ?_, ?_⟩
    · rw [first, queued, BoundedFifo.contents_pop, queued]
      simp
    · rw [Stage.run_concat, second]
  | finished finishing room =>
    refine ⟨accepted, first, ?_⟩
    rw [second, finishing, BoundedFifo.contents_push]
    simp
  | taken queued =>
    refine ⟨accepted, first, ?_⟩
    rw [second, queued, BoundedFifo.contents_pop, queued]
    simp

theorem start_tracks (f : Stage σ α β) (g : Stage τ β γ) (s : σ) (t : τ) :
    (start s t : Line σ τ α β γ m n).Tracks f g s t := ⟨trivial, rfl, rfl⟩

-- What has been taken is the beginning of what the workers make of all that was given.
theorem Tracks.taken_first (tracks : l.Tracks f g s t) :
    l.taken <+: (g.run t (f.run s l.given).2).2 := by
  rw [tracks.first, List.append_assoc, Stage.run_append, tracks.second]
  exact ⟨_, by simp only [List.append_assoc]; rfl⟩

theorem taken_grows {a : Action α} (taken : l.step f g a = .next l') : l.taken <+: l'.taken := by
  cases step_stepped taken with
  | taken => exact List.prefix_append _ _
  | _ => exact List.prefix_rfl

theorem step_take {z : γ} {rest : List γ} (queued : l.after.contents = z :: rest)
    (taken : l.step f g .take = .next l') : l'.taken = l.taken ++ [z] := by
  cases step_stepped taken with
  | taken first =>
    obtain ⟨rfl, -⟩ := List.cons.inj (first.symm.trans queued)
    rfl

/-- Every inner step brings the end one step nearer. -/
theorem step_left {a : Action α} (inner : a.isInner = true) (taken : l.step f g a = .next l') :
    l.left g = l'.left g + 1 ∧ l'.given = l.given := by
  cases step_stepped taken with
  | gave => cases inner
  | sent leaving room =>
    refine ⟨?_, rfl⟩
    simp only [left, leaving, BoundedFifo.contents_push, List.length_cons, List.length_append,
      List.length_nil, List.append_assoc, List.cons_append, List.nil_append]
    omega
  | passed queued idle =>
    refine ⟨?_, rfl⟩
    simp only [left, queued, idle, BoundedFifo.contents_pop, List.tail_cons, List.length_cons,
      List.length_nil, List.cons_append, Stage.run_cons, List.length_append]
    omega
  | finished finishing room =>
    refine ⟨?_, rfl⟩
    simp only [left, finishing, BoundedFifo.contents_push, List.length_cons, List.length_append,
      List.length_nil]
    omega
  | taken queued =>
    refine ⟨?_, rfl⟩
    simp only [left, queued, BoundedFifo.contents_pop, List.tail_cons, List.length_cons]
    omega

/-- As long as steps are left, one of them can be taken: no worker waits for the other for ever. -/
theorem inner_enabled (roomy : 0 < m ∧ 0 < n) (willing : ∀ t y, g.accepts t y = true)
    (unfinished : 0 < l.left g) : ∃ a l', a.isInner = true ∧ l.step f g a = .next l' := by
  cases taking : l.after.contents with
  | cons z rest => exact ⟨.take, _, rfl, by simp only [step, taking]; rfl⟩
  | nil =>
    cases finishing : l.finishing with
    | cons z rest =>
      have room : l.after.contents.length < n := by rw [taking]; exact roomy.2
      exact ⟨.finish, _, rfl, by simp only [step, finishing, dif_pos room]; rfl⟩
    | nil =>
      cases queued : l.between.contents with
      | cons y rest =>
        have free : l.finishing = [] ∧ g.accepts l.second y = true := ⟨finishing, willing _ _⟩
        exact ⟨.pass, _, rfl, by simp only [step, queued, if_pos free]; rfl⟩
      | nil =>
        cases leaving : l.leaving with
        | cons y rest =>
          have room : l.between.contents.length < m := by rw [queued]; exact roomy.1
          exact ⟨.send, _, rfl, by simp only [step, leaving, dif_pos room]; rfl⟩
        | nil => simp [left, taking, finishing, queued, leaving] at unfinished

theorem Tracks.taken_all (tracks : l.Tracks f g s t) (finished : l.left g = 0) :
    l.taken = (g.run t (f.run s l.given).2).2 := by
  simp only [left, Nat.add_eq_zero_iff, Nat.mul_eq_zero, List.length_eq_zero_iff] at finished
  obtain ⟨⟨⟨⟨leaving, queued⟩, finishing⟩, taking⟩, -⟩ := finished
  have leaving : l.leaving = [] := by simpa using leaving
  have finishing : l.finishing = [] := by simpa using finishing
  rw [tracks.first, queued, leaving, List.append_nil, List.append_nil, tracks.second, taking, finishing,
    List.append_nil, List.append_nil]

theorem run_tracks {actions : List (Action α)} (tracks : l.Tracks f g s t)
    (ran : Machine.run (Line.step f g) l actions = some l') : l'.Tracks f g s t := by
  induction actions generalizing l with
  | nil => cases ran; exact tracks
  | cons a rest ih =>
    simp only [Machine.run] at ran
    split at ran
    next u taken => exact ih (tracks.step taken) ran
    next => cases ran

theorem run_left {actions : List (Action α)} (inner : ∀ a ∈ actions, a.isInner = true)
    (ran : Machine.run (Line.step f g) l actions = some l') :
    l.left g = l'.left g + actions.length ∧ l'.given = l.given := by
  induction actions generalizing l with
  | nil => cases ran; exact ⟨rfl, rfl⟩
  | cons a rest ih =>
    simp only [Machine.run] at ran
    split at ran
    next u taken =>
      obtain ⟨here, same⟩ := step_left (inner a List.mem_cons_self) taken
      obtain ⟨later, given⟩ := ih (fun a member => inner a (List.mem_cons_of_mem _ member)) ran
      exact ⟨by rw [here, later, List.length_cons, Nat.add_assoc], given.trans same⟩
    next => cases ran

/-- However the workers are scheduled from here on, with nothing new given: they go on until as many
steps as are left have been taken, and then all that is to be made has been taken, in order. -/
theorem Tracks.delivers (tracks : l.Tracks f g s t) (roomy : 0 < m ∧ 0 < n)
    (willing : ∀ t y, g.accepts t y = true) {actions : List (Action α)}
    (inner : ∀ a ∈ actions, a.isInner = true) (ran : Machine.run (Line.step f g) l actions = some l') :
    actions.length ≤ l.left g ∧
      (actions.length < l.left g → ∃ a u, a.isInner = true ∧ l'.step f g a = .next u) ∧
      (actions.length = l.left g → l'.taken = (g.run t (f.run s l.given).2).2) := by
  obtain ⟨steps, given⟩ := run_left inner ran
  refine ⟨by omega, fun unfinished => inner_enabled roomy willing (by omega), fun finished => ?_⟩
  rw [← given]
  exact (run_tracks tracks ran).taken_all (by omega)

end Line

end Pipeline
