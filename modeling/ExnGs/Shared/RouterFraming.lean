import ExnGs.Shared.FramerStream

set_option autoImplicit false

namespace ExnGs.Framer

open SpacePacket

theorem DeclaresLength.bounds {declaredPacketSize : List UInt8 → Except Text Nat}
    (length : DeclaresLength declaredPacketSize) {xs : List UInt8} {size : Nat}
    (declared : declaredPacketSize xs = .ok size) : 7 ≤ size ∧ size ≤ 65542 := by
  have value := length xs size declared
  have small := BigEndian.value_lt ((xs.drop 4).take 2)
  have width : ((xs.drop 4).take 2).length ≤ 2 := by simp
  have bound : 256 ^ ((xs.drop 4).take 2).length ≤ 256 ^ 2 :=
    Nat.pow_le_pow_right (by decide) width
  omega

structure Burst where
  noise : List UInt8
  payload : List UInt8

def Burst.bytes (burst : Burst) : List UInt8 := burst.noise ++ burst.payload

-- The library rejects the six-byte window of the whole stream at every noise byte.
def NoiseRejected (declaredPacketSize : List UInt8 → Except Text Nat) : List Burst → Prop
  | [] => True
  | burst :: rest =>
    (∀ i < burst.noise.length, ∃ message,
      declaredPacketSize (((burst.bytes ++ rest.flatMap Burst.bytes).drop i).take 6) =
        .error message) ∧
      NoiseRejected declaredPacketSize rest

-- The blocks the framer has to find: each noise byte alone, then the payload.
def Burst.blocks (burst : Burst) : List (Cut × List UInt8) :=
  burst.noise.map (fun byte => (.dropped, [byte])) ++ [(.packet, burst.payload)]

theorem Burst.blocks_bytes (burst : Burst) : burst.blocks.flatMap Prod.snd = burst.bytes := by
  simp [blocks, bytes, List.flatMap_map]

theorem turn_rejected {declaredPacketSize : List UInt8 → Except Text Nat}
    (header : DependsOnHeader declaredPacketSize) {acc : List UInt8} {message : Text}
    (long : 6 ≤ acc.length) (rejected : declaredPacketSize (acc.take 6) = .error message) :
    turn declaredPacketSize acc = some (.dropped, 1) := by
  have notShort : ¬ acc.length < 6 := by omega
  simp [turn, notShort, header acc long, rejected]

theorem turn_declared {declaredPacketSize : List UInt8 → Except Text Nat}
    (length : DeclaresLength declaredPacketSize) {packet : List UInt8}
    (declared : declaredPacketSize packet = .ok packet.length) :
    turn declaredPacketSize packet = some (.packet, packet.length) := by
  have bounds := length.bounds declared
  have notShort : ¬ packet.length < 6 := by omega
  have inRange : ¬ (packet.length < 7 ∨ 65542 < packet.length) := by omega
  simp only [turn, notShort, if_false, declared, inRange, Nat.lt_irrefl]

theorem tiles_noise {declaredPacketSize : List UInt8 → Except Text Nat}
    (header : DependsOnHeader declaredPacketSize) (noise tail : List UInt8) (long : 6 ≤ tail.length)
    (rejected : ∀ i < noise.length, ∃ message,
      declaredPacketSize (((noise ++ tail).drop i).take 6) = .error message) :
    (segmenter header).Tiles tail (noise.map fun byte => (.dropped, [byte])) := by
  induction noise with
  | nil => trivial
  | cons byte noise ih =>
    have flat : (noise.map fun byte => (Cut.dropped, [byte])).flatMap Prod.snd = noise := by
      simp [List.flatMap_map]
    constructor
    · obtain ⟨message, window⟩ := rejected 0 (by simp)
      rw [flat]
      exact turn_rejected header (by simp only [List.length_append, List.length_singleton]; omega)
        window
    · apply ih
      intro i inside
      simpa using rejected (i + 1) (by simp only [List.length_cons]; omega)

theorem tiles_bursts {declaredPacketSize : List UInt8 → Except Text Nat}
    (header : DependsOnHeader declaredPacketSize) (length : DeclaresLength declaredPacketSize)
    (bursts : List Burst)
    (declared : ∀ burst ∈ bursts, declaredPacketSize burst.payload = .ok burst.payload.length)
    (rejected : NoiseRejected declaredPacketSize bursts) :
    (segmenter header).Tiles [] (bursts.flatMap Burst.blocks) := by
  induction bursts with
  | nil => trivial
  | cons burst rest ih =>
    obtain ⟨here, later⟩ := rejected
    have payload := declared burst (by simp)
    have rest' := ih (fun other member => declared other (List.mem_cons_of_mem _ member)) later
    have flat : (rest.flatMap Burst.blocks).flatMap Prod.snd = rest.flatMap Burst.bytes := by
      simp [List.flatMap_assoc, Burst.blocks_bytes]
    rw [List.flatMap_cons, Burst.blocks, List.append_assoc]
    apply (segmenter header).tiles_append
    · apply tiles_noise header
      · have least := (length.bounds payload).1
        simp; omega
      · simpa [flat, Burst.bytes] using here
    · exact ⟨turn_append header _ (turn_declared length payload), rest'⟩

theorem packets_noise (noise : List UInt8) :
    packets (noise.map fun byte => (Cut.dropped, [byte])) = [] := by
  simp [packets]

theorem drops_noise (noise : List UInt8) :
    drops (noise.map fun byte => (Cut.dropped, [byte])) = noise.length := by
  simp [drops, List.countP_map, Function.comp_def]

theorem packets_bursts (bursts : List Burst) :
    packets (bursts.flatMap Burst.blocks) = bursts.map Burst.payload := by
  induction bursts with
  | nil => rfl
  | cons burst rest ih => simp [Burst.blocks, packets_noise, ih]

theorem drops_bursts (bursts : List Burst) :
    drops (bursts.flatMap Burst.blocks) = (bursts.map fun burst => burst.noise.length).sum := by
  induction bursts with
  | nil => rfl
  | cons burst rest ih => simp [Burst.blocks, drops_noise, ih]

-- Whatever the router accepts is framed again on the other side, also behind noise.
theorem pushAll_accepted (lib : CcsdsPack)
    (header : DependsOnHeader lib.declaredPacketSize) (length : DeclaresLength lib.declaredPacketSize)
    (bursts : List Burst)
    (accepted : ∀ burst ∈ bursts, ∃ now m, decodeMeta lib now burst.payload = some (.ok m))
    (rejected : NoiseRejected lib.declaredPacketSize bursts)
    (chunks : List (List UInt8)) (cut : chunks.flatten = bursts.flatMap Burst.bytes) :
    pushAll lib.declaredPacketSize {} chunks =
      ({ acc := []
         framingErrors := UInt64.ofNat (bursts.map fun burst => burst.noise.length).sum },
        bursts.map Burst.payload) := by
  have declared : ∀ burst ∈ bursts,
      lib.declaredPacketSize burst.payload = .ok burst.payload.length := by
    intro burst member
    obtain ⟨now, m, decoded⟩ := accepted burst member
    exact decodeMeta_accepts decoded
  have tiles := tiles_bursts header length bursts declared rejected
  have flat : (bursts.flatMap Burst.blocks).flatMap Prod.snd = bursts.flatMap Burst.bytes := by
    simp [List.flatMap_assoc, Burst.blocks_bytes]
  have split := (segmenter header).split_tiles [] _ tiles
  have empty : (segmenter header).split [] = ([], []) :=
    (segmenter header).split_none (turn_nil lib.declaredPacketSize)
  rw [flat, List.append_nil, empty, List.append_nil] at split
  rw [pushAll_fresh header, cut, split, packets_bursts, drops_bursts]

theorem pushAll_accepted_noise :
    pushAll Reference.pack.declaredPacketSize {} [[0xFF, 0, 0], [0xC0, 0, 0, 0, 42]] =
      ({ acc := [], framingErrors := 1 }, [[0, 0, 0xC0, 0, 0, 0, 42]]) :=
  pushAll_accepted Reference.pack Reference.dependsOnHeader Reference.declaresLength
    [{ noise := [0xFF], payload := [0, 0, 0xC0, 0, 0, 0, 42] }]
    (by
      intro burst member
      rw [List.mem_singleton.mp member]
      exact ⟨0, { seqf := 3 }, by decide⟩)
    ⟨by
      intro i inside
      obtain rfl : i = 0 := by simpa using inside
      exact ⟨_, rfl⟩, trivial⟩
    [[0xFF, 0, 0], [0xC0, 0, 0, 0, 42]] (by decide)

end ExnGs.Framer
