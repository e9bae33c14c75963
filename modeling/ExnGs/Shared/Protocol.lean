import ExnGs.Lib.Bytes
import ExnGs.Shared.Types

set_option autoImplicit false

namespace ExnGs.Proto

open Buffer

-- A scoped enumeration over `uint16_t`: every 16-bit value is a value of the type.
structure MsgType where
  value : UInt16
  deriving DecidableEq, Repr

namespace MsgType

def Hello : MsgType := ⟨1⟩
def LinkState : MsgType := ⟨2⟩
def PacketRx : MsgType := ⟨3⟩
def PacketTx : MsgType := ⟨4⟩
def Error : MsgType := ⟨255⟩
def Command : MsgType := ⟨10⟩
def Query : MsgType := ⟨11⟩
def QueryResult : MsgType := ⟨12⟩
def PacketSend : MsgType := ⟨13⟩

end MsgType

structure Frame where
  type : MsgType
  payload : List UInt8
  deriving DecidableEq, Repr

-- `Frame f;` before `try_decode` has assigned it.
def Frame.unset : Frame := { type := ⟨0⟩, payload := [] }

structure PacketMeta where
  tsNs : UInt64 := 0
  ver : UInt8 := 0
  typ : UInt8 := 0
  shf : UInt8 := 0
  apid : UInt16 := 0
  seqf : UInt8 := 0
  seq : UInt16 := 0
  len : UInt16 := 0
  svc : UInt8 := 0
  ssvc : UInt8 := 0
  deriving DecidableEq, Repr

def appendU32 (v : List UInt8) (x : UInt32) : List UInt8 :=
  v ++ [((x >>> 24) &&& 0xFF).toUInt8, ((x >>> 16) &&& 0xFF).toUInt8,
    ((x >>> 8) &&& 0xFF).toUInt8, (x &&& 0xFF).toUInt8]

def appendU16 (v : List UInt8) (x : UInt16) : List UInt8 :=
  v ++ [((x >>> 8) &&& 0xFF).toUInt8, (x &&& 0xFF).toUInt8]

def appendU64 (v : List UInt8) (x : UInt64) : List UInt8 :=
  v ++ [((x >>> 56) &&& 0xFF).toUInt8, ((x >>> 48) &&& 0xFF).toUInt8,
    ((x >>> 40) &&& 0xFF).toUInt8, ((x >>> 32) &&& 0xFF).toUInt8,
    ((x >>> 24) &&& 0xFF).toUInt8, ((x >>> 16) &&& 0xFF).toUInt8,
    ((x >>> 8) &&& 0xFF).toUInt8, (x &&& 0xFF).toUInt8]

def readU32 (p : List UInt8) (off : Nat) : Option UInt32 := do
  let b0 ← p[off]?
  let b1 ← p[off + 1]?
  let b2 ← p[off + 2]?
  let b3 ← p[off + 3]?
  return (b0.toUInt32 <<< 24) ||| (b1.toUInt32 <<< 16) ||| (b2.toUInt32 <<< 8) ||| b3.toUInt32

def readU16 (p : List UInt8) (off : Nat) : Option UInt16 := do
  let b0 ← p[off]?
  let b1 ← p[off + 1]?
  return (b0.toUInt16 <<< 8) ||| b1.toUInt16

def readU64 (p : List UInt8) (off : Nat) : Option UInt64 := do
  let b0 ← p[off]?
  let b1 ← p[off + 1]?
  let b2 ← p[off + 2]?
  let b3 ← p[off + 3]?
  let b4 ← p[off + 4]?
  let b5 ← p[off + 5]?
  let b6 ← p[off + 6]?
  let b7 ← p[off + 7]?
  return (b0.toUInt64 <<< 56) ||| (b1.toUInt64 <<< 48) ||| (b2.toUInt64 <<< 40) |||
    (b3.toUInt64 <<< 32) ||| (b4.toUInt64 <<< 24) ||| (b5.toUInt64 <<< 16) |||
    (b6.toUInt64 <<< 8) ||| b7.toUInt64

def encode (f : Frame) : List UInt8 :=
  let len : UInt32 := 2 + UInt32.ofNat f.payload.length
  appendU16 (appendU32 [] len) f.type.value ++ f.payload

/-- The result is the returned flag, the buffer and `out` afterwards; `none` is a read or an erase
outside of the buffer. -/
def tryDecode (buffer : List UInt8) (out : Frame) : Option (Bool × List UInt8 × Frame) :=
  if buffer.length < 4 then some (false, buffer, out)
  else do
    let len ← readU32 buffer 0
    if len < 2 then return (false, buffer, out)
    -- `4u + len` is `uint32_t` arithmetic; the iterators below count in 64 bits.
    if buffer.length < (4 + len).toNat then return (false, buffer, out)
    let t ← readU16 buffer 4
    let payload ← slice buffer 6 (4 + len.toNat)
    let rest ← eraseFront buffer (4 + len.toNat)
    return (true, rest, { type := ⟨t⟩, payload })

def packString (s : Text) : List UInt8 :=
  appendU32 [] (UInt32.ofNat s.length) ++ s

def unpackString (p : List UInt8) (s : Text) : Option (Bool × Text) :=
  if p.length < 4 then some (false, s)
  else do
    let n ← readU32 p 0
    if p.length < (4 + n).toNat then return (false, s)
    let s ← slice p 4 (4 + n.toNat)
    return (true, s)

def packPacketMeta (m : PacketMeta) (desc : Text) : List UInt8 :=
  let p := appendU64 [] m.tsNs
  let p := p ++ [m.ver] ++ [m.typ] ++ [m.shf] ++ [m.seqf]
  let p := appendU16 (appendU16 (appendU16 p m.apid) m.seq) m.len
  let p := p ++ [m.svc] ++ [m.ssvc]
  appendU16 p (UInt16.ofNat desc.length) ++ desc

/-- The returned flag, `m` and `desc` afterwards; `none` is a read outside of the vector. -/
def unpackPacketMeta (p : List UInt8) (m : PacketMeta) (desc : Text) :
    Option (Bool × PacketMeta × Text) :=
  if p.length < 22 then some (false, m, desc)
  else do
    let off := 0
    let tsNs ← readU64 p off
    let off := off + 8
    let ver ← p[off]?
    let off := off + 1
    let typ ← p[off]?
    let off := off + 1
    let shf ← p[off]?
    let off := off + 1
    let seqf ← p[off]?
    let off := off + 1
    let apid ← readU16 p off
    let off := off + 2
    let seq ← readU16 p off
    let off := off + 2
    let len ← readU16 p off
    let off := off + 2
    let svc ← p[off]?
    let off := off + 1
    let ssvc ← p[off]?
    let off := off + 1
    let dlen ← readU16 p off
    let off := off + 2
    let m := { tsNs, ver, typ, shf, apid, seqf, seq, len, svc, ssvc }
    if p.length < off + dlen.toNat then return (false, m, desc)
    let desc ← slice p off (off + dlen.toNat)
    return (true, m, desc)

theorem byte_mask (n : Nat) : n % 256 &&& 255 = n % 256 := by
  rw [show 255 = 2 ^ 8 - 1 from rfl, Nat.and_two_pow_sub_one_eq_mod, Nat.mod_mod]

theorem appendU32_bytes (v : List UInt8) (x : UInt32) :
    appendU32 v x = v ++ BigEndian.bytes 4 x.toNat := by
  simp only [appendU32, BigEndian.bytes, List.append_cancel_left_eq, List.cons.injEq, and_true]
  refine ⟨?_, ?_, ?_, ?_⟩ <;> apply UInt8.toNat_inj.mp <;>
    simp [Nat.shiftRight_eq_div_pow, byte_mask]

theorem appendU16_bytes (v : List UInt8) (x : UInt16) :
    appendU16 v x = v ++ BigEndian.bytes 2 x.toNat := by
  simp only [appendU16, BigEndian.bytes, List.append_cancel_left_eq, List.cons.injEq, and_true]
  refine ⟨?_, ?_⟩ <;> apply UInt8.toNat_inj.mp <;> simp [Nat.shiftRight_eq_div_pow, byte_mask]

theorem or_shift (high low width : Nat) (small : low < 2 ^ width) :
    high * 2 ^ width ||| low = high * 2 ^ width + low := by
  rw [Nat.mul_comm, Nat.two_pow_add_eq_or_of_lt small]

theorem exists_prefix_four (p : List UInt8) (off : Nat) (inside : off + 4 ≤ p.length) :
    ∃ b0 b1 b2 b3, p[off]? = some b0 ∧ p[off + 1]? = some b1 ∧ p[off + 2]? = some b2 ∧
      p[off + 3]? = some b3 ∧ (p.drop off).take 4 = [b0, b1, b2, b3] := by
  refine ⟨p[off], p[off + 1], p[off + 2], p[off + 3], by simp, by simp, by simp, by simp, ?_⟩
  rw [List.drop_eq_getElem_cons (by omega), List.drop_eq_getElem_cons (by omega),
    List.drop_eq_getElem_cons (by omega), List.drop_eq_getElem_cons (by omega)]
  rfl

theorem readU32_value (p : List UInt8) (off : Nat) (inside : off + 4 ≤ p.length) :
    ∃ x, readU32 p off = some x ∧ x.toNat = BigEndian.value ((p.drop off).take 4) := by
  obtain ⟨b0, b1, b2, b3, h0, h1, h2, h3, first⟩ := exists_prefix_four p off inside
  refine ⟨_, by simp only [readU32, h0, h1, h2, h3]; rfl, ?_⟩
  have l0 := b0.toNat_lt
  have l1 := b1.toNat_lt
  have l2 := b2.toNat_lt
  have l3 := b3.toNat_lt
  have shift24 : b0.toNat <<< 24 % 2 ^ 32 = b0.toNat * 2 ^ 24 := by
    rw [Nat.shiftLeft_eq]; omega
  have shift16 : b1.toNat <<< 16 % 2 ^ 32 = b1.toNat * 2 ^ 16 := by
    rw [Nat.shiftLeft_eq]; omega
  have shift8 : b2.toNat <<< 8 % 2 ^ 32 = b2.toNat * 2 ^ 8 := by
    rw [Nat.shiftLeft_eq]; omega
  -- Each disjunction adds a byte below all those already placed.
  have two : b0.toNat * 2 ^ 24 ||| b1.toNat * 2 ^ 16 = (b0.toNat * 2 ^ 8 + b1.toNat) * 2 ^ 16 := by
    rw [or_shift _ _ 24 (by omega)]; ring
  have three : (b0.toNat * 2 ^ 8 + b1.toNat) * 2 ^ 16 ||| b2.toNat * 2 ^ 8 =
      (b0.toNat * 2 ^ 16 + b1.toNat * 2 ^ 8 + b2.toNat) * 2 ^ 8 := by
    rw [or_shift _ _ 16 (by omega)]; ring
  have four : (b0.toNat * 2 ^ 16 + b1.toNat * 2 ^ 8 + b2.toNat) * 2 ^ 8 ||| b3.toNat =
      (b0.toNat * 2 ^ 16 + b1.toNat * 2 ^ 8 + b2.toNat) * 2 ^ 8 + b3.toNat :=
    or_shift _ _ 8 l3
  simp only [UInt32.toNat_or, UInt32.toNat_shiftLeft, UInt8.toNat_toUInt32, UInt32.reduceToNat,
    Nat.reduceMod, shift24, shift16, shift8, two, three, four, first, BigEndian.value,
    List.length_cons, List.length_nil]
  ring

theorem readU16_value (p : List UInt8) (off : Nat) (inside : off + 2 ≤ p.length) :
    ∃ x, readU16 p off = some x ∧ x.toNat = BigEndian.value ((p.drop off).take 2) := by
  have first : (p.drop off).take 2 = [p[off], p[off + 1]] := by
    rw [List.drop_eq_getElem_cons (by omega), List.drop_eq_getElem_cons (by omega)]
    rfl
  have h0 : p[off]? = some p[off] := by simp
  have h1 : p[off + 1]? = some p[off + 1] := by simp
  refine ⟨_, by simp only [readU16, h0, h1]; rfl, ?_⟩
  have l0 := (p[off]).toNat_lt
  have l1 := (p[off + 1]).toNat_lt
  have shift8 : (p[off]).toNat <<< 8 % 2 ^ 16 = (p[off]).toNat * 2 ^ 8 := by
    rw [Nat.shiftLeft_eq]; omega
  simp only [UInt16.toNat_or, UInt16.toNat_shiftLeft, UInt8.toNat_toUInt16, UInt16.reduceToNat,
    Nat.reduceMod, shift8, or_shift _ _ 8 l1, first, BigEndian.value, List.length_cons,
    List.length_nil]
  ring

end ExnGs.Proto
