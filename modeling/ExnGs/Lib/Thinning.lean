import Mathlib.Data.List.Basic
import ExnGs.Lib.Segmenter

set_option autoImplicit false

-- Elements taken out of a list, and blocks out of a stream, by their numbers.
namespace Thinning

variable {α : Type}

-- `n` is the number of the first element.
def thin (delete : Nat → Bool) : Nat → List α → List α
  | _, [] => []
  | n, x :: xs => if delete n then thin delete (n + 1) xs else x :: thin delete (n + 1) xs

theorem thin_append (delete : Nat → Bool) (n : Nat) (xs ys : List α) :
    thin delete n (xs ++ ys) = thin delete n xs ++ thin delete (n + xs.length) ys := by
  induction xs generalizing n with
  | nil => rfl
  | cons x xs ih =>
    have shifted : n + 1 + xs.length = n + (x :: xs).length := by
      simp only [List.length_cons]
      omega
    rw [List.cons_append, thin, thin, ih, shifted]
    split
    next => rfl
    next => rfl

theorem thin_id {delete : Nat → Bool} {n : Nat} (keeps : ∀ m, n ≤ m → delete m = false)
    (xs : List α) : thin delete n xs = xs := by
  induction xs generalizing n with
  | nil => rfl
  | cons x xs ih =>
    rw [thin, keeps n (Nat.le_refl n), ih fun m later => keeps m (by omega)]
    rfl

-- An element that a filter shows has its counterpart in every list that looks the same.
theorem counterpart {β : Type} {f : α → Option β} {xs ys : List α}
    (same : ys.filterMap f = xs.filterMap f) {i : Nat} {x : α} {shown : β} (here : xs[i]? = some x)
    (shows : f x = some shown) :
    ∃ j y, ys[j]? = some y ∧ f y = some shown ∧
      (ys.eraseIdx j).filterMap f = (xs.eraseIdx i).filterMap f := by
  obtain ⟨inside, rfl⟩ := List.getElem?_eq_some_iff.mp here
  have split : xs.filterMap f =
      (xs.take i).filterMap f ++ shown :: (xs.drop (i + 1)).filterMap f := by
    conv => lhs; rw [← List.take_append_drop i xs, List.drop_eq_getElem_cons inside]
    rw [List.filterMap_append, List.filterMap_cons_some shows]
  rw [split, List.filterMap_eq_append_iff] at same
  obtain ⟨before, rest, rfl, first, later⟩ := same
  rw [List.filterMap_eq_cons_iff] at later
  obtain ⟨hidden, y, after, rfl, unseen, shows', last⟩ := later
  have index : (before ++ hidden).length = before.length + hidden.length := List.length_append
  refine ⟨before.length + hidden.length, y, ?_, shows', ?_⟩
  · rw [← List.append_assoc, ← index, List.getElem?_append_right (Nat.le_refl _), Nat.sub_self]
    rfl
  · rw [← List.append_assoc, ← index, List.eraseIdx_append_of_length_le (Nat.le_refl _), Nat.sub_self,
      List.eraseIdx_cons_zero, List.eraseIdx_eq_take_drop_succ, List.filterMap_append,
      List.filterMap_append, List.filterMap_append, first, last,
      List.filterMap_eq_nil_iff.mpr unseen, List.append_nil]

theorem filterMap_eraseIdx_hidden {β : Type} {f : α → Option β} {xs : List α} {i : Nat} {x : α}
    (here : xs[i]? = some x) (hidden : f x = none) :
    (xs.eraseIdx i).filterMap f = xs.filterMap f := by
  obtain ⟨inside, rfl⟩ := List.getElem?_eq_some_iff.mp here
  conv => rhs; rw [← List.take_append_drop i xs, List.drop_eq_getElem_cons inside]
  rw [List.eraseIdx_eq_take_drop_succ, List.filterMap_append, List.filterMap_append,
    List.filterMap_cons_none hidden]

end Thinning

namespace Segmenter

open Thinning

variable {α κ : Type}

-- A block shows in as much of the stream as holds it.
def Prompt (s : Segmenter α κ) : Prop :=
  ∀ (xs ys : List α) (k : κ) (n : Nat), s.cut (xs ++ ys) = some (k, n) → n ≤ xs.length →
    s.cut xs = some (k, n)

-- The stream without the blocks that are deleted. A block that is not complete yet has its number too.
def without (s : Segmenter α κ) (delete : Nat → Bool) (n : Nat) (xs : List α) : List α :=
  (thin delete n (s.split xs).1).flatMap Prod.snd ++
    if delete (n + (s.split xs).1.length) then [] else (s.split xs).2

theorem without_none (s : Segmenter α κ) (delete : Nat → Bool) (m : Nat) {xs : List α}
    (waiting : s.cut xs = none) : s.without delete m xs = if delete m then [] else xs := by
  rw [without, s.split_none waiting]
  rfl

theorem without_some (s : Segmenter α κ) (delete : Nat → Bool) (m : Nat) {xs : List α} {k : κ}
    {n : Nat} (found : s.cut xs = some (k, n)) :
    s.without delete m xs =
      (if delete m then [] else xs.take n) ++ s.without delete (m + 1) (xs.drop n) := by
  have shifted : m + ((s.split (xs.drop n)).1.length + 1) =
      m + 1 + (s.split (xs.drop n)).1.length := by omega
  rw [without, s.split_some found, List.length_cons, shifted, thin, without]
  split
  next => rfl
  next => rw [List.flatMap_cons, List.append_assoc]

theorem without_id (s : Segmenter α κ) {delete : Nat → Bool} {m : Nat}
    (keeps : ∀ l, m ≤ l → delete l = false) (xs : List α) : s.without delete m xs = xs := by
  rw [without, thin_id keeps, keeps _ (Nat.le_add_right m _)]
  exact s.split_flatten xs

-- More input never takes back what was passed on.
theorem without_prefix {s : Segmenter α κ} (prompt : s.Prompt) (delete : Nat → Bool) (m : Nat)
    (xs ys : List α) : s.without delete m xs <+: s.without delete m (xs ++ ys) := by
  induction xs using s.cut_induction generalizing m with
  | next xs k n found ih =>
    have le := s.cut_le found
    rw [s.without_some delete m found, s.without_some delete m (s.cut_append ys found),
      List.take_append_of_le_length le, List.drop_append_of_le_length le]
    exact (List.prefix_append_right_inj _).mpr (ih (m + 1))
  | stop xs waiting =>
    rw [s.without_none delete m waiting]
    split
    next => exact List.nil_prefix
    next kept =>
      cases found : s.cut (xs ++ ys) with
      | none =>
        rw [s.without_none delete m found, if_neg kept]
        exact List.prefix_append xs ys
      | some block =>
        obtain ⟨k, n⟩ := block
        have long : xs.length ≤ n := by
          by_contra short
          have shows := prompt xs ys k n found (by omega)
          rw [waiting] at shows
          cases shows
        rw [s.without_some delete m found, if_neg kept, List.take_append, List.append_assoc,
          List.take_of_length_le long]
        exact List.prefix_append xs _

-- A block that stays is still the first one.
theorem without_kept {s : Segmenter α κ} (prompt : s.Prompt) {delete : Nat → Bool} {m : Nat}
    {xs : List α} {k : κ} {n : Nat} (found : s.cut xs = some (k, n)) (kept : delete m = false) :
    s.cut (s.without delete m xs) = some (k, n) ∧
      (s.without delete m xs).drop n = s.without delete (m + 1) (xs.drop n) := by
  have length : (xs.take n).length = n := List.length_take_of_le (s.cut_le found)
  have here : s.cut (xs.take n) = some (k, n) := by
    refine prompt _ (xs.drop n) k n ?_ (Nat.le_of_eq length.symm)
    rw [List.take_append_drop, found]
  have after : s.without delete m xs = xs.take n ++ s.without delete (m + 1) (xs.drop n) := by
    rw [s.without_some delete m found, kept]
    rfl
  rw [after]
  exact ⟨s.cut_append _ here, List.drop_left' length⟩

theorem without_deleted (s : Segmenter α κ) {delete : Nat → Bool} {m : Nat} {xs : List α} {k : κ}
    {n : Nat} (found : s.cut xs = some (k, n)) (deleted : delete m = true) :
    s.without delete m xs = s.without delete (m + 1) (xs.drop n) := by
  rw [s.without_some delete m found, deleted]
  rfl

end Segmenter
