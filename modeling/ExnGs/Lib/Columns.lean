import Mathlib.Algebra.GroupWithZero.Nat
import Mathlib.Data.List.DropRight
import Mathlib.Data.List.Forall2

set_option autoImplicit false

-- Lines of cells of fixed widths.
namespace Columns

variable {α : Type}

-- Each cell with a separator behind it.
def separated (sep : α) (cells : List (List α)) : List α := cells.flatMap (· ++ [sep])

-- Cuts cells of these widths, and the separators behind them, off the front of a line.
def cut : List Nat → List α → List (List α) × List α
  | [], rest => ([], rest)
  | width :: widths, rest =>
    let later := cut widths (rest.drop (width + 1))
    (rest.take width :: later.1, later.2)

def Fills (width : Nat) (cell : List α) : Prop := cell.length = width

variable {widths : List Nat} {cells : List (List α)}

theorem length_separated (sep : α) (fill : List.Forall₂ Fills widths cells) :
    (separated sep cells).length = (widths.map (· + 1)).sum := by
  induction fill with
  | nil => rfl
  | cons fills _ ih =>
    rw [separated, List.flatMap_cons, List.length_append, ← separated, ih, List.length_append, fills]
    rfl

/-- Cells that fill their columns are found where they were put. -/
theorem cut_separated (sep : α) (fill : List.Forall₂ Fills widths cells) (rest : List α) :
    cut widths (separated sep cells ++ rest) = (cells, rest) := by
  induction fill with
  | nil => rfl
  | @cons width cell _ _ fills _ ih =>
    have cell_sep : (cell ++ [sep]).length = width + 1 := by rw [List.length_append, fills]; rfl
    rw [separated, List.flatMap_cons, List.append_assoc, ← separated, cut, ← cell_sep, List.drop_left, ih,
      List.append_assoc, ← fills, List.take_left]

/-- Cells that do not hold the separator are also found by it. -/
theorem splitOn_separated [BEq α] [LawfulBEq α] {sep : α} (whole : ∀ cell ∈ cells, sep ∉ cell) :
    (separated sep cells).splitOn sep = cells ++ [[]] := by
  induction cells with
  | nil => rfl
  | cons cell cells ih =>
    rw [List.forall_mem_cons] at whole
    rw [separated, List.flatMap_cons, ← separated, List.append_assoc, List.singleton_append,
      List.splitOn_append_cons_self_of_not_mem whole.1, ih whole.2]
    rfl

section Padding

variable {pad : α} {width : Nat} {cell : List α}

theorem fills_leftpad (fits : cell.length ≤ width) : Fills width (cell.leftpad width pad) := by
  rw [Fills, List.length_leftpad, Nat.max_eq_left fits]

theorem fills_rightpad (fits : cell.length ≤ width) : Fills width (cell.rightpad width pad) := by
  rw [Fills, List.length_rightpad, Nat.max_eq_left fits]

variable [DecidableEq α]

theorem dropWhile_leftpad (head : ∀ x, cell.head? = some x → x ≠ pad) :
    (cell.leftpad width pad).dropWhile (· = pad) = cell := by
  rw [List.leftpad, List.dropWhile_append, List.dropWhile_replicate]
  simp only [decide_true, if_true, List.isEmpty_nil]
  cases cell with
  | nil => rfl
  | cons x rest => exact List.dropWhile_cons_of_neg (by simpa using head x rfl)

theorem rdropWhile_rightpad :
    (cell.rightpad width pad).rdropWhile (· = pad) = cell.rdropWhile (· = pad) := by
  rw [List.rightpad]
  induction width - cell.length with
  | zero => simp
  | succ n ih =>
    rw [List.replicate_succ', ← List.append_assoc, List.rdropWhile_concat_pos _ _ _ (by simp), ih]

end Padding

end Columns
