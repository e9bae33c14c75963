set_option autoImplicit false

/-- A queue of at most `capacity` elements, oldest first. -/
structure BoundedFifo (α : Type) (capacity : Nat) where
  contents : List α
  bounded : contents.length ≤ capacity

namespace BoundedFifo

variable {α : Type} {capacity : Nat}

def empty : BoundedFifo α capacity := ⟨[], Nat.zero_le _⟩

def push (q : BoundedFifo α capacity) (v : α) (room : q.contents.length < capacity) :
    BoundedFifo α capacity where
  contents := q.contents ++ [v]
  bounded := by
    rw [List.length_append]
    exact room

def pop (q : BoundedFifo α capacity) : BoundedFifo α capacity where
  contents := q.contents.tail
  bounded := by
    rw [List.length_tail]
    exact Nat.le_trans (Nat.sub_le _ _) q.bounded

@[simp] theorem contents_push (q : BoundedFifo α capacity) (v : α) (room : q.contents.length < capacity) :
    (q.push v room).contents = q.contents ++ [v] := rfl

@[simp] theorem contents_pop (q : BoundedFifo α capacity) : q.pop.contents = q.contents.tail := rfl

-- How an operation ended: the element went in, or there was no room for it; the front came out, or
-- there was none.
inductive Event (α : Type)
  | pushed (v : α)
  | full (v : α)
  | popped (v : α)
  | empty
  deriving DecidableEq, Repr

inductive Step (q : BoundedFifo α capacity) : Event α → BoundedFifo α capacity → Prop
  | pushed (v : α) (room : q.contents.length < capacity) : Step q (.pushed v) (q.push v room)
  | full (v : α) (full : q.contents.length = capacity) : Step q (.full v) q
  | popped (v : α) (front : q.contents.head? = some v) : Step q (.popped v) q.pop
  | empty (none : q.contents = []) : Step q .empty q

inductive Runs : List (Event α) → BoundedFifo α capacity → Prop
  | start : Runs [] empty
  | snoc {history : List (Event α)} {q q' : BoundedFifo α capacity} {e : Event α} :
      Runs history q → Step q e q' → Runs (history ++ [e]) q'

def pushes (history : List (Event α)) : List α :=
  history.filterMap fun
    | .pushed v => some v
    | _ => none

def pops (history : List (Event α)) : List α :=
  history.filterMap fun
    | .popped v => some v
    | _ => none

theorem pushes_concat (history : List (Event α)) (e : Event α) :
    pushes (history ++ [e]) = pushes history ++ pushes [e] := List.filterMap_append

theorem pops_concat (history : List (Event α)) (e : Event α) :
    pops (history ++ [e]) = pops history ++ pops [e] := List.filterMap_append

theorem Step.conserves {q q' : BoundedFifo α capacity} {e : Event α} (step : Step q e q') :
    q.contents ++ pushes [e] = pops [e] ++ q'.contents := by
  cases step with
  | pushed v room => rfl
  | full v full => exact List.append_nil _
  | popped v front =>
    obtain ⟨rest, shape⟩ := List.head?_eq_some_iff.mp front
    rw [contents_pop, shape]
    exact List.append_nil _
  | empty none => exact List.append_nil _

-- What went in came out, in order, or is still there.
theorem Runs.conserved {history : List (Event α)} {q : BoundedFifo α capacity} (runs : Runs history q) :
    pushes history = pops history ++ q.contents := by
  induction runs with
  | start => rfl
  | snoc _ step ih =>
    rw [pushes_concat, pops_concat, ih, List.append_assoc, step.conserves, List.append_assoc]

end BoundedFifo
