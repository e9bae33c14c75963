import Mathlib.Data.List.Basic

set_option autoImplicit false

/-- A rule that cuts the next block off the front of a stream. `cut` names the block's label and
length, or waits for more input; a block, once cut, does not depend on what arrives later. -/
structure Segmenter (α κ : Type) where
  cut : List α → Option (κ × Nat)
  cut_pos : ∀ {xs : List α} {k : κ} {n : Nat}, cut xs = some (k, n) → 0 < n
  cut_le : ∀ {xs : List α} {k : κ} {n : Nat}, cut xs = some (k, n) → n ≤ xs.length
  cut_append : ∀ {xs : List α} {k : κ} {n : Nat} (ys : List α),
    cut xs = some (k, n) → cut (xs ++ ys) = some (k, n)

namespace Segmenter

variable {α κ : Type}

theorem drop_shorter (s : Segmenter α κ) {xs : List α} {k : κ} {n : Nat}
    (found : s.cut xs = some (k, n)) : (xs.drop n).length < xs.length := by
  have pos := s.cut_pos found
  have le := s.cut_le found
  simp only [List.length_drop]
  omega

def split (s : Segmenter α κ) (xs : List α) : List (κ × List α) × List α :=
  match _found : s.cut xs with
  | none => ([], xs)
  | some (k, n) =>
    let later := s.split (xs.drop n)
    ((k, xs.take n) :: later.1, later.2)
termination_by xs.length
decreasing_by exact s.drop_shorter _found

theorem split_none (s : Segmenter α κ) {xs : List α} (waiting : s.cut xs = none) :
    s.split xs = ([], xs) := by
  rw [split.eq_def]
  split
  next => rfl
  next k n found => rw [waiting] at found; contradiction

theorem split_some (s : Segmenter α κ) {xs : List α} {k : κ} {n : Nat}
    (found : s.cut xs = some (k, n)) :
    s.split xs = ((k, xs.take n) :: (s.split (xs.drop n)).1, (s.split (xs.drop n)).2) := by
  conv => lhs; rw [split.eq_def]
  split
  next waiting => rw [found] at waiting; contradiction
  next k' n' found' =>
    rw [found] at found'
    cases found'
    rfl

theorem cut_induction (s : Segmenter α κ) {motive : List α → Prop}
    (stop : ∀ xs, s.cut xs = none → motive xs)
    (next : ∀ xs k n, s.cut xs = some (k, n) → motive (xs.drop n) → motive xs) :
    ∀ xs, motive xs := by
  intro xs
  induction size : xs.length using Nat.strongRecOn generalizing xs with
  | ind m ih =>
    cases found : s.cut xs with
    | none => exact stop xs found
    | some block =>
      have shorter := s.drop_shorter found
      exact next xs block.1 block.2 found (ih _ (size ▸ shorter) _ rfl)

theorem split_flatten (s : Segmenter α κ) (xs : List α) :
    (s.split xs).1.flatMap Prod.snd ++ (s.split xs).2 = xs := by
  induction xs using s.cut_induction with
  | stop xs waiting => simp [s.split_none waiting]
  | next xs k n found ih =>
    rw [s.split_some found]
    simp only [List.flatMap_cons, List.append_assoc, ih, List.take_append_drop]

theorem cut_residue (s : Segmenter α κ) (xs : List α) : s.cut (s.split xs).2 = none := by
  induction xs using s.cut_induction with
  | stop xs waiting => simp [s.split_none waiting, waiting]
  | next xs k n found ih => rw [s.split_some found]; exact ih

theorem mem_split (s : Segmenter α κ) {block : κ × List α} (xs : List α)
    (member : block ∈ (s.split xs).1) :
    ∃ rest n, s.cut rest = some (block.1, n) ∧ block.2 = rest.take n := by
  induction xs using s.cut_induction with
  | stop xs waiting => simp [s.split_none waiting] at member
  | next xs k n found ih =>
    rw [s.split_some found] at member
    rcases List.mem_cons.mp member with rfl | later
    · exact ⟨xs, n, found, rfl⟩
    · exact ih later

theorem split_append (s : Segmenter α κ) (xs ys : List α) :
    s.split (xs ++ ys) =
      ((s.split xs).1 ++ (s.split ((s.split xs).2 ++ ys)).1,
        (s.split ((s.split xs).2 ++ ys)).2) := by
  induction xs using s.cut_induction with
  | stop xs waiting => simp [s.split_none waiting]
  | next xs k n found ih =>
    have le := s.cut_le found
    rw [s.split_some found, s.split_some (s.cut_append ys found),
      List.take_append_of_le_length le, List.drop_append_of_le_length le, ih]
    rfl

def feed (s : Segmenter α κ) : List α → List (List α) → List (κ × List α) × List α
  | residue, [] => ([], residue)
  | residue, chunk :: chunks =>
    let now := s.split (residue ++ chunk)
    let later := feed s now.2 chunks
    (now.1 ++ later.1, later.2)

theorem feed_eq_split (s : Segmenter α κ) (residue : List α) (waiting : s.cut residue = none)
    (chunks : List (List α)) : s.feed residue chunks = s.split (residue ++ chunks.flatten) := by
  induction chunks generalizing residue with
  | nil => simp [feed, s.split_none waiting]
  | cons chunk chunks ih =>
    rw [feed, ih _ (s.cut_residue _), List.flatten_cons, ← List.append_assoc,
      s.split_append (residue ++ chunk)]

-- The blocks are cut one after the other, in this order, when `tail` follows them.
def Tiles (s : Segmenter α κ) (tail : List α) : List (κ × List α) → Prop
  | [] => True
  | block :: blocks =>
    s.cut (block.2 ++ (blocks.flatMap Prod.snd ++ tail)) = some (block.1, block.2.length) ∧
      s.Tiles tail blocks

theorem split_tiles (s : Segmenter α κ) (tail : List α) (blocks : List (κ × List α))
    (tiles : s.Tiles tail blocks) :
    s.split (blocks.flatMap Prod.snd ++ tail) = (blocks ++ (s.split tail).1, (s.split tail).2) := by
  induction blocks with
  | nil => rfl
  | cons block blocks ih =>
    obtain ⟨first, rest⟩ := tiles
    rw [List.flatMap_cons, List.append_assoc, s.split_some first, List.take_left,
      List.drop_left, ih rest]
    rfl

theorem tiles_append (s : Segmenter α κ) (tail : List α) (left right : List (κ × List α))
    (first : s.Tiles (right.flatMap Prod.snd ++ tail) left) (second : s.Tiles tail right) :
    s.Tiles tail (left ++ right) := by
  induction left with
  | nil => exact second
  | cons block blocks ih =>
    obtain ⟨here, later⟩ := first
    refine ⟨?_, ih later⟩
    change s.cut (block.2 ++ ((blocks ++ right).flatMap Prod.snd ++ tail)) = _
    rw [List.flatMap_append, List.append_assoc]
    exact here

end Segmenter
