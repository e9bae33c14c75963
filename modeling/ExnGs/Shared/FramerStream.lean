import ExnGs.Shared.ReferencePack

set_option autoImplicit false

namespace ExnGs.Framer

variable {declaredPacketSize : List UInt8 → Except Text Nat}

theorem DependsOnHeader.append (header : DependsOnHeader declaredPacketSize) {xs : List UInt8}
    (ys : List UInt8) (long : 6 ≤ xs.length) :
    declaredPacketSize (xs ++ ys) = declaredPacketSize xs := by
  rw [header (xs ++ ys) (by simp only [List.length_append]; omega), header xs long,
    List.take_append_of_le_length long]

theorem turn_append (header : DependsOnHeader declaredPacketSize) {acc : List UInt8} {cut : Cut}
    {size : Nat} (more : List UInt8) (taken : turn declaredPacketSize acc = some (cut, size)) :
    turn declaredPacketSize (acc ++ more) = some (cut, size) := by
  have bounds := turn_bounds declaredPacketSize taken
  by_cases short : acc.length < 6
  · simp [turn, short] at taken
  · have long : ¬ (acc ++ more).length < 6 := by simp only [List.length_append]; omega
    simp only [turn, short, long, if_false, header.append more (Nat.le_of_not_lt short)] at taken ⊢
    split at taken
    next => exact taken
    next total _ =>
      split at taken
      next outOfRange => rw [if_pos outOfRange]; exact taken
      next inRange =>
        split at taken
        next => contradiction
        next whole =>
          have still : ¬ (acc ++ more).length < total := by
            simp only [List.length_append]; omega
          rw [if_neg inRange, if_neg still]
          exact taken

-- The framer's loop as a rule for cutting blocks off a stream.
def segmenter (header : DependsOnHeader declaredPacketSize) : Segmenter UInt8 Cut where
  cut := turn declaredPacketSize
  cut_pos := fun taken => (turn_bounds declaredPacketSize taken).1
  cut_le := fun taken => (turn_bounds declaredPacketSize taken).2
  cut_append := fun more taken => turn_append header more taken

def packets (blocks : List (Cut × List UInt8)) : List (List UInt8) :=
  (blocks.filter fun block => block.1 = .packet).map Prod.snd

def drops (blocks : List (Cut × List UInt8)) : Nat :=
  blocks.countP fun block => block.1 = .dropped

@[simp] theorem packets_nil : packets [] = [] := rfl

@[simp] theorem packets_dropped (bytes : List UInt8) (blocks : List (Cut × List UInt8)) :
    packets ((.dropped, bytes) :: blocks) = packets blocks := by
  simp [packets]

@[simp] theorem packets_packet (bytes : List UInt8) (blocks : List (Cut × List UInt8)) :
    packets ((.packet, bytes) :: blocks) = bytes :: packets blocks := by
  simp [packets]

@[simp] theorem packets_append (left right : List (Cut × List UInt8)) :
    packets (left ++ right) = packets left ++ packets right := by
  simp [packets]

@[simp] theorem drops_nil : drops [] = 0 := rfl

@[simp] theorem drops_dropped (bytes : List UInt8) (blocks : List (Cut × List UInt8)) :
    drops ((.dropped, bytes) :: blocks) = drops blocks + 1 := by
  simp [drops]

@[simp] theorem drops_packet (bytes : List UInt8) (blocks : List (Cut × List UInt8)) :
    drops ((.packet, bytes) :: blocks) = drops blocks := by
  simp [drops]

@[simp] theorem drops_append (left right : List (Cut × List UInt8)) :
    drops (left ++ right) = drops left + drops right := by
  simp [drops]

theorem loop_return (framer : CcsdsFramer) (waiting : turn declaredPacketSize framer.acc = none) :
    loop declaredPacketSize framer = (framer, []) := by
  rw [loop.eq_def]
  split <;> simp_all

theorem loop_dropped (framer : CcsdsFramer) (size : Nat)
    (taken : turn declaredPacketSize framer.acc = some (.dropped, size)) :
    loop declaredPacketSize framer = loop declaredPacketSize
      { acc := framer.acc.drop size, framingErrors := framer.framingErrors + 1 } := by
  conv => lhs; rw [loop.eq_def]
  split <;> simp_all

theorem loop_packet (framer : CcsdsFramer) (size : Nat)
    (taken : turn declaredPacketSize framer.acc = some (.packet, size)) :
    loop declaredPacketSize framer =
      ((loop declaredPacketSize { framer with acc := framer.acc.drop size }).1,
        framer.acc.take size ::
          (loop declaredPacketSize { framer with acc := framer.acc.drop size }).2) := by
  conv => lhs; rw [loop.eq_def]
  split <;> simp_all

-- The loop returns after at most one turn for each byte held, and one more.
theorem loopWithin_enough (turns : Nat) (framer : CcsdsFramer)
    (enough : framer.acc.length < turns) :
    loopWithin declaredPacketSize turns framer = some (loop declaredPacketSize framer) := by
  induction turns generalizing framer with
  | zero => omega
  | succ turns ih =>
    cases taken : turn declaredPacketSize framer.acc with
    | none => simp [loopWithin, taken, loop_return framer taken]
    | some block =>
      obtain ⟨cut, size⟩ := block
      have bounds := turn_bounds declaredPacketSize taken
      have fewer : (framer.acc.drop size).length < turns := by
        simp only [List.length_drop]; omega
      cases cut with
      | dropped =>
        have next := ih { acc := framer.acc.drop size, framingErrors := framer.framingErrors + 1 } fewer
        simp only [loopWithin, taken, next, loop_dropped framer size taken]
      | packet =>
        have next := ih { framer with acc := framer.acc.drop size } fewer
        simp only [loopWithin, taken, next, Option.map_some, loop_packet framer size taken]

theorem loop_split (header : DependsOnHeader declaredPacketSize) (acc : List UInt8)
    (errors : UInt64) :
    loop declaredPacketSize { acc, framingErrors := errors } =
      ({ acc := ((segmenter header).split acc).2
         framingErrors := errors + UInt64.ofNat (drops ((segmenter header).split acc).1) },
        packets ((segmenter header).split acc).1) := by
  induction acc using (segmenter header).cut_induction generalizing errors with
  | stop acc waiting =>
    rw [loop_return { acc, framingErrors := errors } waiting, (segmenter header).split_none waiting]
    simp
  | next acc cut size taken ih =>
    rw [(segmenter header).split_some taken]
    cases cut with
    | dropped =>
      rw [loop_dropped { acc, framingErrors := errors } size taken, ih]
      simp [UInt64.ofNat_add, UInt64.add_assoc, UInt64.add_comm]
    | packet =>
      rw [loop_packet { acc, framingErrors := errors } size taken, ih]
      simp

theorem pushBytes_split (header : DependsOnHeader declaredPacketSize) (framer : CcsdsFramer)
    (waiting : turn declaredPacketSize framer.acc = none) (data : List UInt8) :
    pushBytes declaredPacketSize framer data =
      ({ acc := ((segmenter header).split (framer.acc ++ data)).2
         framingErrors := framer.framingErrors +
           UInt64.ofNat (drops ((segmenter header).split (framer.acc ++ data)).1) },
        packets ((segmenter header).split (framer.acc ++ data)).1) := by
  unfold pushBytes
  split
  next empty =>
    rw [List.length_eq_zero_iff.mp empty, List.append_nil, (segmenter header).split_none waiting]
    simp
  next => exact loop_split header _ _

theorem pushAll_feed (header : DependsOnHeader declaredPacketSize) (framer : CcsdsFramer)
    (waiting : turn declaredPacketSize framer.acc = none) (chunks : List (List UInt8)) :
    pushAll declaredPacketSize framer chunks =
      ({ acc := ((segmenter header).feed framer.acc chunks).2
         framingErrors := framer.framingErrors +
           UInt64.ofNat (drops ((segmenter header).feed framer.acc chunks).1) },
        packets ((segmenter header).feed framer.acc chunks).1) := by
  induction chunks generalizing framer with
  | nil => simp [pushAll, Segmenter.feed]
  | cons chunk chunks ih =>
    have now := pushBytes_split header framer waiting chunk
    have stable : turn declaredPacketSize (pushBytes declaredPacketSize framer chunk).1.acc = none := by
      rw [now]
      exact (segmenter header).cut_residue _
    rw [pushAll, ih _ stable, now]
    simp [Segmenter.feed, UInt64.ofNat_add, UInt64.add_assoc]

theorem turn_nil (declaredPacketSize : List UInt8 → Except Text Nat) :
    turn declaredPacketSize [] = none := by
  simp [turn]

theorem pushAll_fresh (header : DependsOnHeader declaredPacketSize) (chunks : List (List UInt8)) :
    pushAll declaredPacketSize {} chunks =
      ({ acc := ((segmenter header).split chunks.flatten).2
         framingErrors := UInt64.ofNat (drops ((segmenter header).split chunks.flatten).1) },
        packets ((segmenter header).split chunks.flatten).1) := by
  have waiting := turn_nil declaredPacketSize
  rw [pushAll_feed header {} waiting, (segmenter header).feed_eq_split [] waiting]
  simp

theorem pushAll_chunking (header : DependsOnHeader declaredPacketSize)
    (left right : List (List UInt8)) (same : left.flatten = right.flatten) :
    pushAll declaredPacketSize {} left = pushAll declaredPacketSize {} right := by
  rw [pushAll_fresh header, pushAll_fresh header, same]

theorem pushAll_chunking_bytewise :
    pushAll SpacePacket.Reference.pack.declaredPacketSize {} [[0xFF, 0, 0, 0xC0, 0, 0, 0, 42]] =
      pushAll SpacePacket.Reference.pack.declaredPacketSize {}
        [[0xFF], [], [0], [0], [0xC0], [0], [0], [0], [42]] :=
  pushAll_chunking SpacePacket.Reference.dependsOnHeader _ _ (by decide)

theorem turn_packet {acc : List UInt8} {size : Nat}
    (taken : turn declaredPacketSize acc = some (.packet, size)) :
    declaredPacketSize acc = .ok size ∧ 7 ≤ size ∧ size ≤ 65542 ∧ size ≤ acc.length := by
  unfold turn at taken
  split at taken
  next => contradiction
  next =>
    split at taken
    next => cases taken
    next total declared =>
      split at taken
      next => cases taken
      next =>
        split at taken
        next => contradiction
        next => cases taken; exact ⟨declared, by omega, by omega, by omega⟩

theorem turn_dropped {acc : List UInt8} {size : Nat}
    (taken : turn declaredPacketSize acc = some (.dropped, size)) : size = 1 := by
  unfold turn at taken
  split at taken
  next => contradiction
  next =>
    split at taken
    next => cases taken; rfl
    next =>
      split at taken
      next => cases taken; rfl
      next => split at taken <;> cases taken

theorem turn_wait {acc : List UInt8} (waiting : turn declaredPacketSize acc = none) :
    acc.length < 6 ∨ ∃ total, declaredPacketSize acc = .ok total ∧ 7 ≤ total ∧ total ≤ 65542 ∧
      acc.length < total := by
  unfold turn at waiting
  split at waiting
  next short => exact Or.inl short
  next =>
    split at waiting
    next => contradiction
    next total declared =>
      split at waiting
      next => contradiction
      next =>
        split at waiting
        next => exact Or.inr ⟨total, declared, by omega, by omega, by omega⟩
        next => contradiction

-- The bytes that the loop drops one by one until the next of them can begin a packet.
def resyncs (declaredPacketSize : List UInt8 → Except Text Nat) (acc : List UInt8) : Nat :=
  match _taken : turn declaredPacketSize acc with
  | none => 0
  | some (.dropped, size) => resyncs declaredPacketSize (acc.drop size) + 1
  | some (.packet, size) => resyncs declaredPacketSize (acc.drop size)
termination_by acc.length
decreasing_by
  all_goals
    have bounds := turn_bounds declaredPacketSize _taken
    simp only [List.length_drop]
    omega

/-- The loop counts each byte that it drops, and it hands on or keeps all the others. -/
theorem loop_balance (framer : CcsdsFramer) :
    (loop declaredPacketSize framer).1.framingErrors =
        framer.framingErrors + UInt64.ofNat (resyncs declaredPacketSize framer.acc) ∧
      (loop declaredPacketSize framer).2.flatten.length + resyncs declaredPacketSize framer.acc +
          (loop declaredPacketSize framer).1.acc.length = framer.acc.length := by
  induction framer using loop.induct declaredPacketSize with
  | case1 framer waiting =>
    rw [loop_return framer waiting, resyncs, waiting]
    simp
  | case2 framer size taken ih =>
    have one := turn_dropped taken
    have inside := (turn_bounds declaredPacketSize taken).2
    obtain ⟨errors, octets⟩ := ih
    rw [loop_dropped framer size taken, resyncs, taken, errors]
    simp only [List.length_drop] at octets ⊢
    refine ⟨?_, by omega⟩
    rw [UInt64.ofNat_add, UInt64.add_assoc, UInt64.add_comm 1]
    rfl
  | case3 framer size taken ih =>
    have inside := (turn_bounds declaredPacketSize taken).2
    obtain ⟨errors, octets⟩ := ih
    rw [loop_packet framer size taken, resyncs, taken]
    simp only [List.length_drop, List.flatten_cons, List.length_append, List.length_take] at octets ⊢
    exact ⟨errors, by omega⟩

-- The bytes that a push makes the framer drop.
def dropped (declaredPacketSize : List UInt8 → Except Text Nat) (framer : CcsdsFramer)
    (data : List UInt8) : Nat :=
  if data.length = 0 then 0 else resyncs declaredPacketSize (framer.acc ++ data)

theorem pushBytes_balance (declaredPacketSize : List UInt8 → Except Text Nat) (framer : CcsdsFramer)
    (data : List UInt8) :
    (pushBytes declaredPacketSize framer data).1.framingErrors =
        framer.framingErrors + UInt64.ofNat (dropped declaredPacketSize framer data) ∧
      (pushBytes declaredPacketSize framer data).2.flatten.length +
          dropped declaredPacketSize framer data +
          (pushBytes declaredPacketSize framer data).1.acc.length =
        framer.acc.length + data.length := by
  unfold pushBytes dropped
  split
  next none => simp [none]
  next =>
    rw [← List.length_append]
    exact loop_balance { framer with acc := framer.acc ++ data }

theorem mem_packets {blocks : List (Cut × List UInt8)} {packet : List UInt8} :
    packet ∈ packets blocks ↔ (Cut.packet, packet) ∈ blocks := by
  simp [packets]

/-- What a framer that was fresh has done with the bytes pushed into it so far. -/
structure Conserves (declaredPacketSize : List UInt8 → Except Text Nat) (pushed : List UInt8)
    (framer : CcsdsFramer) (emitted : List (List UInt8)) : Prop where
  interleaved : ∃ blocks : List (Cut × List UInt8),
    blocks.flatMap Prod.snd ++ framer.acc = pushed ∧
    packets blocks = emitted ∧
    (∀ block ∈ blocks, block.1 = .dropped → block.2.length = 1) ∧
    framer.framingErrors = UInt64.ofNat (drops blocks)
  sized : ∀ packet ∈ emitted,
    declaredPacketSize packet = .ok packet.length ∧ 7 ≤ packet.length ∧ packet.length ≤ 65542
  bounded : framer.acc.length ≤ 65541
  held : framer.acc.length < 6 ∨ ∃ total, declaredPacketSize framer.acc = .ok total ∧
    7 ≤ total ∧ total ≤ 65542 ∧ framer.acc.length < total

theorem split_sized (header : DependsOnHeader declaredPacketSize) (xs : List UInt8)
    (packet : List UInt8) (emitted : packet ∈ packets ((segmenter header).split xs).1) :
    declaredPacketSize packet = .ok packet.length ∧ 7 ≤ packet.length ∧
      packet.length ≤ 65542 := by
  obtain ⟨rest, size, taken, front⟩ := (segmenter header).mem_split xs (mem_packets.mp emitted)
  obtain ⟨declared, least, most, inside⟩ := turn_packet taken
  simp only at front
  have length : packet.length = size := by rw [front, List.length_take_of_le inside]
  have same : declaredPacketSize packet = declaredPacketSize rest := by
    rw [header packet (by omega), header rest (by omega), front, List.take_take,
      Nat.min_eq_left (by omega)]
  rw [same, declared, length]
  exact ⟨rfl, least, most⟩

theorem pushBytes_sized (header : DependsOnHeader declaredPacketSize) (framer : CcsdsFramer)
    (data : List UInt8) :
    ∀ packet ∈ (pushBytes declaredPacketSize framer data).2,
      declaredPacketSize packet = .ok packet.length := by
  intro packet emitted
  unfold pushBytes at emitted
  split at emitted
  next => cases emitted
  next =>
    rw [loop_split header] at emitted
    exact (split_sized header _ packet emitted).1

theorem pushAll_conserves (header : DependsOnHeader declaredPacketSize)
    (chunks : List (List UInt8)) :
    Conserves declaredPacketSize chunks.flatten (pushAll declaredPacketSize {} chunks).1
      (pushAll declaredPacketSize {} chunks).2 ∧
    ∀ data, pushWithin declaredPacketSize
      (((pushAll declaredPacketSize {} chunks).1.acc ++ data).length + 1)
      (pushAll declaredPacketSize {} chunks).1 data =
        some (pushBytes declaredPacketSize (pushAll declaredPacketSize {} chunks).1 data) := by
  have held := turn_wait ((segmenter header).cut_residue chunks.flatten)
  constructor
  · rw [pushAll_fresh header]
    refine ⟨⟨_, (segmenter header).split_flatten _, rfl, ?_, rfl⟩, ?_, ?_, held⟩
    · intro block member dropped
      obtain ⟨rest, size, taken, front⟩ := (segmenter header).mem_split _ member
      rw [dropped] at taken
      have one := turn_dropped taken
      have inside := (turn_bounds declaredPacketSize taken).2
      rw [front, List.length_take_of_le inside, one]
    · exact fun packet emitted => split_sized header _ packet emitted
    · rcases held with short | ⟨total, _, _, most, incomplete⟩
      · simp only; omega
      · simp only; omega
  · intro data
    unfold pushWithin pushBytes
    split
    next => rfl
    next => exact loopWithin_enough _ _ (by simp)

theorem pushAll_conserves_noise :
    Conserves SpacePacket.Reference.pack.declaredPacketSize [0xFF, 0, 0, 0xC0, 0, 0, 0, 42, 7]
      (pushAll SpacePacket.Reference.pack.declaredPacketSize {}
        [[0xFF, 0, 0], [0xC0, 0, 0, 0, 42, 7]]).1
      (pushAll SpacePacket.Reference.pack.declaredPacketSize {}
        [[0xFF, 0, 0], [0xC0, 0, 0, 0, 42, 7]]).2 :=
  (pushAll_conserves SpacePacket.Reference.dependsOnHeader
    [[0xFF, 0, 0], [0xC0, 0, 0, 0, 42, 7]]).1

end ExnGs.Framer
