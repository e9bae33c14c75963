import ExnGs.Shared.RouterFraming

set_option autoImplicit false

-- Packets one after the other, as they arrive at the other end of a connection.
namespace ExnGs.Framer

variable {declaredPacketSize : List UInt8 → Except Text Nat}

-- A packet that declares its own length, and nothing else.
def Declared (declaredPacketSize : List UInt8 → Except Text Nat) (packet : List UInt8) : Prop :=
  declaredPacketSize packet = .ok packet.length

-- The packets of which the last byte is among the first `n` of all their bytes.
def whole : Nat → List (List UInt8) → List (List UInt8)
  | _, [] => []
  | n, packet :: rest => if packet.length ≤ n then packet :: whole (n - packet.length) rest else []

-- What has arrived of a packet before its last byte.
def Unfinished (packets : List (List UInt8)) (part : List UInt8) : Prop :=
  part = [] ∨ ∃ packet ∈ packets, part <+: packet ∧ part.length < packet.length

theorem whole_first (n : Nat) (packets : List (List UInt8)) : whole n packets <+: packets := by
  induction packets generalizing n with
  | nil => exact List.prefix_refl _
  | cons packet rest ih =>
    unfold whole
    split
    next => exact (List.prefix_cons_inj packet).mpr (ih _)
    next => exact List.nil_prefix

theorem whole_all (packets : List (List UInt8)) : whole packets.flatten.length packets = packets := by
  induction packets with
  | nil => rfl
  | cons packet rest ih =>
    rw [whole, List.flatten_cons, List.length_append, if_pos (Nat.le_add_right _ _),
      Nat.add_sub_cancel_left, ih]

-- However many bytes have arrived, they are whole packets and the beginning of one more.
theorem take_whole (packets : List (List UInt8)) (n : Nat) :
    ∃ part, packets.flatten.take n = (whole n packets).flatten ++ part ∧ Unfinished packets part := by
  induction packets generalizing n with
  | nil => exact ⟨[], by simp [whole], .inl rfl⟩
  | cons packet rest ih =>
    by_cases arrived : packet.length ≤ n
    · obtain ⟨part, split, unfinished⟩ := ih (n - packet.length)
      refine ⟨part, ?_, unfinished.imp_right fun ⟨other, member, begins⟩ =>
        ⟨other, List.mem_cons_of_mem _ member, begins⟩⟩
      rw [whole, if_pos arrived, List.flatten_cons, List.flatten_cons, List.take_append,
        List.take_of_length_le arrived, split, List.append_assoc]
    · refine ⟨packet.take n, ?_, .inr ⟨packet, List.mem_cons_self, List.take_prefix _ _, ?_⟩⟩
      · rw [whole, if_neg arrived, List.flatten_nil, List.nil_append, List.flatten_cons,
          List.take_append_of_le_length (by omega)]
      · rw [List.length_take]
        omega

theorem turn_unfinished (header : DependsOnHeader declaredPacketSize)
    (length : DeclaresLength declaredPacketSize) {packets : List (List UInt8)}
    (declared : ∀ packet ∈ packets, Declared declaredPacketSize packet) {part : List UInt8}
    (unfinished : Unfinished packets part) : turn declaredPacketSize part = none := by
  rcases unfinished with rfl | ⟨packet, member, ⟨rest, rfl⟩, shorter⟩
  · exact turn_nil _
  · by_cases short : part.length < 6
    · exact if_pos short
    · have size : declaredPacketSize part = .ok (part ++ rest).length := by
        rw [← header.append rest (Nat.le_of_not_lt short)]
        exact declared _ member
      have bounds := length.bounds size
      have inRange : ¬ ((part ++ rest).length < 7 ∨ 65542 < (part ++ rest).length) := by omega
      simp only [turn, short, if_false, size, inRange, shorter, if_true]

theorem tiles_packets (header : DependsOnHeader declaredPacketSize)
    (length : DeclaresLength declaredPacketSize) (tail : List UInt8) {packets : List (List UInt8)}
    (declared : ∀ packet ∈ packets, Declared declaredPacketSize packet) :
    (segmenter header).Tiles tail (packets.map fun packet => (.packet, packet)) := by
  induction packets with
  | nil => trivial
  | cons packet rest ih =>
    obtain ⟨here, later⟩ := List.forall_mem_cons.mp declared
    exact ⟨turn_append header _ (turn_declared length here), ih later⟩

theorem packets_map (packets : List (List UInt8)) :
    Framer.packets (packets.map fun packet => (Cut.packet, packet)) = packets ∧
      drops (packets.map fun packet => (Cut.packet, packet)) = 0 := by
  induction packets with
  | nil => exact ⟨rfl, rfl⟩
  | cons packet rest ih => simp [ih]

/-- However the bytes were cut up on their way, and however many of them are there: what has been handed
on is the packets that are whole, none earlier and none later than its last byte. -/
theorem pushAll_stream (header : DependsOnHeader declaredPacketSize)
    (length : DeclaresLength declaredPacketSize) {packets : List (List UInt8)}
    (declared : ∀ packet ∈ packets, Declared declaredPacketSize packet) (chunks : List (List UInt8))
    (arrived : chunks.flatten <+: packets.flatten) :
    ∃ part, chunks.flatten = (whole chunks.flatten.length packets).flatten ++ part ∧
      pushAll declaredPacketSize {} chunks =
        ({ acc := part }, whole chunks.flatten.length packets) := by
  obtain ⟨part, split, unfinished⟩ := take_whole packets chunks.flatten.length
  rw [← List.prefix_iff_eq_take.mp arrived] at split
  have first := whole_first chunks.flatten.length packets
  generalize whole chunks.flatten.length packets = done at split first ⊢
  have tiles := tiles_packets header length part fun packet member =>
    declared packet (first.subset member)
  have waits : (segmenter header).split part = ([], part) :=
    (segmenter header).split_none (turn_unfinished header length declared unfinished)
  have cut := (segmenter header).split_tiles part _ tiles
  rw [List.flatMap_map, List.flatMap_id', waits, List.append_nil] at cut
  refine ⟨part, split, ?_⟩
  rw [pushAll_fresh header, split, cut, (packets_map done).1, (packets_map done).2]
  rfl

end ExnGs.Framer
