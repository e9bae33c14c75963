import Mathlib.Data.List.Basic
import Mathlib.Order.Lattice

set_option autoImplicit false

-- Lists whose elements are marked with the epoch that they came in, one epoch after the other.
namespace Epochs

variable {ι α : Type} [LinearOrder ι]

def inEpoch (k : ι) (marked : List (ι × α)) : List α := (marked.filter fun x => x.1 = k).map Prod.snd

def Ascending (marked : List (ι × α)) : Prop := marked.Pairwise fun x y => x.1 ≤ y.1

variable {marked : List (ι × α)} {k : ι} {epochs : List ι}

theorem inEpoch_append (k : ι) (marked more : List (ι × α)) :
    inEpoch k (marked ++ more) = inEpoch k marked ++ inEpoch k more := by
  rw [inEpoch, List.filter_append, List.map_append, inEpoch, inEpoch]

-- The elements of an epoch stand before those of later epochs.
theorem filter_first (ascending : Ascending marked) (later : ∀ e ∈ epochs, k < e) :
    marked.filter (fun x => x.1 ∈ k :: epochs) =
      marked.filter (fun x => x.1 = k) ++ marked.filter fun x => x.1 ∈ epochs := by
  induction marked with
  | nil => rfl
  | cons x rest ih =>
    obtain ⟨after, ascending⟩ := List.pairwise_cons.mp ascending
    have outside : k ∉ epochs := fun member => lt_irrefl k (later k member)
    by_cases first : x.1 = k
    · have notLater : x.1 ∉ epochs := first ▸ outside
      rw [List.filter_cons_of_pos (by simp [first]), List.filter_cons_of_pos (by simp [first]),
        List.filter_cons_of_neg (by simp [notLater]), ih ascending, List.cons_append]
    · by_cases among : x.1 ∈ epochs
      · have none : rest.filter (fun y => y.1 = k) = [] := by
          rw [List.filter_eq_nil_iff]
          intro y member here
          have behind := lt_of_lt_of_le (later x.1 among) (after y member)
          exact ne_of_gt behind (of_decide_eq_true here)
        have rest_first := ih ascending
        rw [none, List.nil_append] at rest_first
        rw [List.filter_cons_of_pos (by simp [among]), List.filter_cons_of_neg (by simp [first]), none,
          List.nil_append, List.filter_cons_of_pos (by simp [among]), rest_first]
      · rw [List.filter_cons_of_neg (by simp [first, among]), List.filter_cons_of_neg (by simp [first]),
          List.filter_cons_of_neg (by simp [among]), ih ascending]

/-- Epoch after epoch, the elements are found in the order that they have in the list. -/
theorem flatMap_inEpoch (ascending : Ascending marked) (increasing : epochs.Pairwise (· < ·)) :
    epochs.flatMap (inEpoch · marked) = (marked.filter fun x => x.1 ∈ epochs).map Prod.snd := by
  induction epochs with
  | nil => simp
  | cons k epochs ih =>
    obtain ⟨later, increasing⟩ := List.pairwise_cons.mp increasing
    rw [List.flatMap_cons, ih increasing, filter_first ascending later, List.map_append]
    rfl

theorem flatMap_inEpoch_sublist (ascending : Ascending marked) (increasing : epochs.Pairwise (· < ·)) :
    (epochs.flatMap (inEpoch · marked)).Sublist (marked.map Prod.snd) := by
  rw [flatMap_inEpoch ascending increasing]
  exact List.filter_sublist.map Prod.snd

theorem flatMap_inEpoch_all (ascending : Ascending marked) (increasing : epochs.Pairwise (· < ·))
    (all : ∀ x ∈ marked, x.1 ∈ epochs) : epochs.flatMap (inEpoch · marked) = marked.map Prod.snd := by
  rw [flatMap_inEpoch ascending increasing, List.filter_eq_self.mpr]
  exact fun x member => decide_eq_true (all x member)

end Epochs
