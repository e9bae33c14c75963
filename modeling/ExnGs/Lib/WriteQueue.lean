import Mathlib.Data.List.Basic
import Mathlib.Data.List.Nodup

set_option autoImplicit false

/-- Writers that post buffers to a queue and write its front, one at a time. Each write in progress
carries the number of times the queue had been cleared when the write was started. -/
structure WriteQueue (β : Type) where
  posted : List β
  queue : List β
  inFlight : List (Nat × β)
  clears : Nat

namespace WriteQueue

variable {β : Type}

def current (q : WriteQueue β) : List (Nat × β) :=
  q.inFlight.filter fun write => write.1 = q.clears

def front (clears : Nat) (queue : List β) : List (Nat × β) :=
  queue.head?.toList.map fun buffer => (clears, buffer)

structure Disciplined (q : WriteQueue β) : Prop where
  one : q.current = front q.clears q.queue
  past : ∀ write ∈ q.inFlight, write.1 ≤ q.clears
  stale : ∀ write ∈ q.inFlight, write.1 ≠ q.clears → write.2 ∉ q.queue
  distinct : q.posted.Nodup
  apart : ∀ buffer ∈ q.posted, buffer ∉ q.queue ∧ ∀ write ∈ q.inFlight, write.2 ≠ buffer

-- The front of the queue is what a write in progress was given exactly when the queue has not been
-- cleared since.
theorem Disciplined.front_iff {q : WriteQueue β} (d : q.Disciplined) {write : Nat × β}
    (member : write ∈ q.inFlight) : q.queue.head? = some write.2 ↔ write.1 = q.clears := by
  constructor
  · intro first
    by_contra old
    exact d.stale write member old (List.mem_of_mem_head? first)
  · intro same
    have started : write ∈ q.current := by simp [current, member, same]
    rw [d.one] at started
    simp only [front, List.mem_map, Option.mem_toList] at started
    obtain ⟨buffer, first, rfl⟩ := started
    exact first

theorem Disciplined.post {q : WriteQueue β} (d : q.Disciplined) (buffer : β)
    (fresh : buffer ∉ q.posted ∧ buffer ∉ q.queue ∧ ∀ write ∈ q.inFlight, write.2 ≠ buffer) :
    Disciplined { q with posted := q.posted ++ [buffer] } := by
  obtain ⟨unposted, apart⟩ := fresh
  refine ⟨d.one, d.past, d.stale, ?_, ?_⟩
  · simp only [List.nodup_append, d.distinct, List.nodup_singleton, List.mem_singleton, true_and]
    rintro other member _ rfl rfl
    exact unposted member
  · intro other member
    rcases List.mem_append.mp member with earlier | now
    · exact d.apart other earlier
    · rw [List.mem_singleton.mp now]
      exact apart

theorem Disciplined.discard {q : WriteQueue β} (d : q.Disciplined) {before after : List β}
    {buffer : β} (split : q.posted = before ++ buffer :: after) :
    Disciplined { q with posted := before ++ after } := by
  have subset : List.Sublist (before ++ after) q.posted := by
    rw [split]
    exact (List.sublist_cons_self buffer after).append_left before
  exact ⟨d.one, d.past, d.stale, d.distinct.sublist subset,
    fun other member => d.apart other (subset.subset member)⟩

theorem Disciplined.accept {q : WriteQueue β} (d : q.Disciplined) {before after : List β}
    {buffer : β} (split : q.posted = before ++ buffer :: after) :
    Disciplined
      { q with
        posted := before ++ after
        queue := q.queue ++ [buffer]
        inFlight := if q.queue = [] then q.inFlight ++ [(q.clears, buffer)] else q.inFlight } := by
  have here : buffer ∈ q.posted := by simp [split]
  have distinct := d.distinct
  rw [split] at distinct
  have other : ∀ b ∈ before ++ after, b ≠ buffer := by
    have h := List.nodup_middle.mp distinct
    intro b member same
    exact (List.nodup_cons.mp h).1 (same ▸ member)
  have remaining := d.discard split
  by_cases idle : q.queue = []
  · refine ⟨?_, ?_, ?_, remaining.distinct, ?_⟩
    · have none := d.one
      simp only [idle, front, List.head?_nil, Option.toList_none, List.map_nil, current] at none
      simp [idle, current, front, none]
    · intro write member
      simp only [idle, if_true, List.mem_append, List.mem_singleton] at member
      rcases member with earlier | rfl
      · exact d.past write earlier
      · exact Nat.le_refl _
    · intro write member old
      simp only [idle, if_true, List.mem_append, List.mem_singleton] at member
      rcases member with earlier | rfl
      · simpa [idle] using (d.apart buffer here).2 write earlier
      · exact absurd rfl old
    · intro b member
      have apart := remaining.apart b member
      simp only [idle, if_true, List.mem_append, List.mem_singleton, List.nil_append]
      refine ⟨other b member, ?_⟩
      rintro write (earlier | rfl)
      · exact apart.2 write earlier
      · exact fun same => other b member same.symm
  · simp only [idle, if_false]
    refine ⟨?_, d.past, ?_, remaining.distinct, ?_⟩
    · have one := d.one
      simp only [current, front] at one ⊢
      rw [one, List.head?_append_of_ne_nil _ idle]
    · intro write member old
      simp only [List.mem_append, List.mem_singleton, not_or]
      exact ⟨d.stale write member old, (d.apart buffer here).2 write member⟩
    · intro b member
      have apart := remaining.apart b member
      simp only [List.mem_append, List.mem_singleton, not_or]
      exact ⟨⟨apart.1, other b member⟩, apart.2⟩

theorem Disciplined.finish {q : WriteQueue β} (d : q.Disciplined) {before after : List (Nat × β)}
    {buffer : β} (split : q.inFlight = before ++ (q.clears, buffer) :: after) :
    Disciplined
      { q with
        queue := q.queue.tail
        inFlight := before ++ after ++ front q.clears q.queue.tail } := by
  have member : (q.clears, buffer) ∈ q.inFlight := by simp [split]
  have first := (d.front_iff member).mpr rfl
  obtain ⟨rest, queue⟩ : ∃ rest, q.queue = buffer :: rest := by
    cases queue : q.queue with
    | nil => simp [queue] at first
    | cons head rest =>
      simp only [queue, List.head?_cons, Option.some.injEq] at first
      exact ⟨rest, by rw [first]⟩
  have others : (before ++ after).filter (fun write => write.1 = q.clears) = [] := by
    have one := d.one
    simp only [current, front, split, queue, List.filter_append, List.filter_cons,
      decide_true, if_true, List.head?_cons, Option.toList_some, List.map_cons, List.map_nil] at one
    have length := congrArg List.length one
    simp only [List.length_append, List.length_cons, List.length_nil] at length
    rw [List.filter_append, List.append_eq_nil_iff, ← List.length_eq_zero_iff,
      ← List.length_eq_zero_iff]
    omega
  have kept : ∀ write ∈ before ++ after, write ∈ q.inFlight := by
    intro write member
    rw [split]
    simp only [List.mem_append, List.mem_cons] at member ⊢
    tauto
  have next : ∀ write ∈ front q.clears rest, write.1 = q.clears ∧ write.2 ∈ rest := by
    intro write member
    simp only [front, List.mem_map, Option.mem_toList] at member
    obtain ⟨b, head, rfl⟩ := member
    exact ⟨rfl, List.mem_of_mem_head? head⟩
  simp only [queue, List.tail_cons]
  refine ⟨?_, ?_, ?_, d.distinct, ?_⟩
  · simp only [current]
    rw [List.filter_append, others, List.nil_append, List.filter_eq_self]
    intro write member
    simpa using (next write member).1
  · intro write member
    rcases List.mem_append.mp member with earlier | now
    · exact d.past write (kept write earlier)
    · exact Nat.le_of_eq (next write now).1
  · intro write member old
    rcases List.mem_append.mp member with earlier | now
    · have absent := d.stale write (kept write earlier) old
      rw [queue] at absent
      exact fun present => absent (List.mem_cons_of_mem _ present)
    · exact absurd (next write now).1 old
  · intro b member
    have apart := d.apart b member
    rw [queue] at apart
    refine ⟨fun present => apart.1 (List.mem_cons_of_mem _ present), ?_⟩
    intro write inside
    rcases List.mem_append.mp inside with earlier | now
    · exact apart.2 write (kept write earlier)
    · rintro rfl
      exact apart.1 (List.mem_cons_of_mem _ (next write now).2)

theorem Disciplined.forget {q : WriteQueue β} (d : q.Disciplined) {before after : List (Nat × β)}
    {write : Nat × β} (split : q.inFlight = before ++ write :: after) (old : write.1 ≠ q.clears) :
    Disciplined { q with inFlight := before ++ after } := by
  have kept : ∀ other ∈ before ++ after, other ∈ q.inFlight := by
    intro other member
    rw [split]
    simp only [List.mem_append, List.mem_cons] at member ⊢
    tauto
  refine ⟨?_, fun other member => d.past other (kept other member),
    fun other member => d.stale other (kept other member), d.distinct, fun buffer member => ?_⟩
  · have one := d.one
    simpa [current, split, List.filter_append, List.filter_cons, old] using one
  · obtain ⟨unposted, apart⟩ := d.apart buffer member
    exact ⟨unposted, fun other inside => apart other (kept other inside)⟩

theorem Disciplined.clear {q : WriteQueue β} (d : q.Disciplined) {writes : List (Nat × β)}
    (subset : ∀ write ∈ writes, write ∈ q.inFlight) :
    Disciplined { q with queue := [], inFlight := writes, clears := q.clears + 1 } := by
  refine ⟨?_, ?_, ?_, d.distinct, ?_⟩
  · simp only [current, front, List.head?_nil, Option.toList_none, List.map_nil,
      List.filter_eq_nil_iff, decide_eq_true_eq]
    intro write member
    have := d.past write (subset write member)
    omega
  · intro write member
    have := d.past write (subset write member)
    simp only
    omega
  · simp
  · intro buffer member
    exact ⟨by simp, fun write inside => (d.apart buffer member).2 write (subset write inside)⟩

end WriteQueue
