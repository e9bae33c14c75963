import Mathlib.Data.List.Basic
import Mathlib.Data.Nat.ModEq

set_option autoImplicit false

-- Numbers given out group by group: within a group they are consecutive, and only after a group is
-- the next number reduced by the modulus.
namespace Numbering

variable {ρ : Type}

def numbered (m : Nat) : Nat → List (List ρ) → List (Nat × ρ)
  | _, [] => []
  | s, group :: rest =>
    group.mapIdx (fun i r => (s + i, r)) ++ numbered m ((s + group.length) % m) rest

def wrapped (m s : Nat) (rs : List ρ) : List (Nat × ρ) := rs.mapIdx fun i r => ((s + i) % m, r)

def Fits (m : Nat) : Nat → List (List ρ) → Prop
  | _, [] => True
  | s, group :: rest => s + group.length ≤ m ∧ Fits m ((s + group.length) % m) rest

theorem wrapped_append (m s : Nat) (left right : List ρ) :
    wrapped m s (left ++ right) = wrapped m s left ++ wrapped m ((s + left.length) % m) right := by
  simp only [wrapped, List.mapIdx_append, Nat.mod_add_mod, Nat.add_assoc, Nat.add_comm left.length]

theorem mem_numbered {m s : Nat} {groups : List (List ρ)} {given : Nat × ρ}
    (member : given ∈ numbered m s groups) : ∃ group ∈ groups, given.2 ∈ group := by
  induction groups generalizing s with
  | nil => cases member
  | cons group rest ih =>
    rcases List.mem_append.mp member with here | later
    · obtain ⟨i, inside, rfl⟩ := List.mem_mapIdx.mp here
      exact ⟨group, List.mem_cons_self, List.getElem_mem inside⟩
    · obtain ⟨other, among, inside⟩ := ih later
      exact ⟨other, List.mem_cons_of_mem _ among, inside⟩

theorem numbered_eq_wrapped (m s : Nat) (groups : List (List ρ)) (fits : Fits m s groups) :
    numbered m s groups = wrapped m s groups.flatten := by
  induction groups generalizing s with
  | nil => rfl
  | cons group rest ih =>
    obtain ⟨here, later⟩ := fits
    have same : group.mapIdx (fun i r => (s + i, r)) = wrapped m s group := by
      refine List.ext_getElem (by simp [wrapped]) fun i inside _ => ?_
      have bound : i < group.length := by simpa using inside
      simp [wrapped, Nat.mod_eq_of_lt (show s + i < m by omega)]
    rw [numbered, ih _ later, same, List.flatten_cons, wrapped_append]

theorem numbered_overflow (m s : Nat) (below : s < m) (groups : List (List ρ))
    (crosses : ¬ Fits m s groups) : ∃ given ∈ numbered m s groups, given.1 = m := by
  induction groups generalizing s with
  | nil => exact absurd trivial crosses
  | cons group rest ih =>
    by_cases here : s + group.length ≤ m
    · have later : ¬ Fits m ((s + group.length) % m) rest := fun fits => crosses ⟨here, fits⟩
      obtain ⟨given, member, equal⟩ := ih _ (Nat.mod_lt _ (by omega)) later
      exact ⟨given, List.mem_append_right _ member, equal⟩
    · have inside : m - s < group.length := by omega
      refine ⟨(m, group[m - s]), List.mem_append_left _ ?_, rfl⟩
      rw [List.mem_mapIdx]
      exact ⟨m - s, inside, by rw [Nat.add_sub_of_le (Nat.le_of_lt below)]⟩

theorem fits_iff (m s : Nat) (below : s < m) (groups : List (List ρ)) :
    Fits m s groups ↔ ∀ before group after, groups = before ++ group :: after →
      (s + before.flatten.length) % m + group.length ≤ m := by
  induction groups generalizing s with
  | nil => simp [Fits]
  | cons first rest ih =>
    have next := ih _ (Nat.mod_lt (s + first.length) (by omega))
    have shift : ∀ before : List (List ρ), (s + (first :: before).flatten.length) % m =
        ((s + first.length) % m + before.flatten.length) % m := by
      intro before
      rw [Nat.mod_add_mod, List.flatten_cons, List.length_append, Nat.add_assoc]
    constructor
    · rintro ⟨here, later⟩ before group after split
      cases before with
      | nil =>
        obtain ⟨rfl, rfl⟩ := List.cons.inj split
        simpa [Nat.mod_eq_of_lt below] using here
      | cons other before =>
        obtain ⟨rfl, rest'⟩ := List.cons.inj split
        rw [shift]
        exact next.mp later before group after rest'
    · intro bound
      refine ⟨?_, next.mpr fun before group after split => ?_⟩
      · simpa [Nat.mod_eq_of_lt below] using bound [] first rest rfl
      · rw [← shift]
        exact bound (first :: before) group after (by rw [split]; rfl)

end Numbering
