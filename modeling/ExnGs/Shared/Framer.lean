import ExnGs.Lib.Bytes
import ExnGs.Lib.Segmenter
import ExnGs.Shared.Types

set_option autoImplicit false

namespace ExnGs.Framer

structure CcsdsFramer where
  acc : List UInt8 := []
  framingErrors : UInt64 := 0
  deriving DecidableEq, Repr

inductive Cut
  | dropped
  | packet
  deriving DecidableEq, Repr

/-- On at least six bytes the library looks at the primary header only. -/
def DependsOnHeader (declaredPacketSize : List UInt8 → Except Text Nat) : Prop :=
  ∀ xs, 6 ≤ xs.length → declaredPacketSize xs = declaredPacketSize (xs.take 6)

def DeclaresLength (declaredPacketSize : List UInt8 → Except Text Nat) : Prop :=
  ∀ xs size, declaredPacketSize xs = .ok size →
    size = 7 + BigEndian.value ((xs.drop 4).take 2)

-- CCSDSPack's `declaredPacketSize`: an error message, or a size in bytes.
variable (declaredPacketSize : List UInt8 → Except Text Nat)

/-- One turn of `while (true)`; `none` is a `return`, otherwise the kind of block taken off the
front of `acc_` and its size. -/
def turn (acc : List UInt8) : Option (Cut × Nat) :=
  if acc.length < 6 then none
  else match declaredPacketSize acc with
    | .error _ => some (.dropped, 1)
    | .ok total =>
      if total < 7 ∨ 65542 < total then some (.dropped, 1)
      else if acc.length < total then none
      else some (.packet, total)

theorem turn_bounds {acc : List UInt8} {cut : Cut} {size : Nat}
    (taken : turn declaredPacketSize acc = some (cut, size)) : 0 < size ∧ size ≤ acc.length := by
  unfold turn at taken
  split at taken
  next => contradiction
  next long =>
    split at taken
    next => cases taken; omega
    next total _ =>
      split at taken
      next => cases taken; omega
      next =>
        split at taken
        next => contradiction
        next => cases taken; omega

def loop (framer : CcsdsFramer) : CcsdsFramer × List (List UInt8) :=
  match _taken : turn declaredPacketSize framer.acc with
  | none => (framer, [])
  | some (.dropped, size) =>
    loop { acc := framer.acc.drop size, framingErrors := framer.framingErrors + 1 }
  | some (.packet, size) =>
    let later := loop { framer with acc := framer.acc.drop size }
    (later.1, framer.acc.take size :: later.2)
termination_by framer.acc.length
decreasing_by
  all_goals
    have bounds := turn_bounds declaredPacketSize _taken
    simp only [List.length_drop]
    omega

def pushBytes (framer : CcsdsFramer) (data : List UInt8) : CcsdsFramer × List (List UInt8) :=
  if data.length = 0 then (framer, [])
  else loop declaredPacketSize { framer with acc := framer.acc ++ data }

def pushAll (framer : CcsdsFramer) : List (List UInt8) → CcsdsFramer × List (List UInt8)
  | [] => (framer, [])
  | data :: rest =>
    let now := pushBytes declaredPacketSize framer data
    let later := pushAll now.1 rest
    (later.1, now.2 ++ later.2)

-- The same loop with a bound on the number of turns; `none` when it has not returned by then.
def loopWithin : Nat → CcsdsFramer → Option (CcsdsFramer × List (List UInt8))
  | 0, _ => none
  | turns + 1, framer =>
    match turn declaredPacketSize framer.acc with
    | none => some (framer, [])
    | some (.dropped, size) =>
      loopWithin turns { acc := framer.acc.drop size, framingErrors := framer.framingErrors + 1 }
    | some (.packet, size) =>
      (loopWithin turns { framer with acc := framer.acc.drop size }).map fun later =>
        (later.1, framer.acc.take size :: later.2)

def pushWithin (turns : Nat) (framer : CcsdsFramer) (data : List UInt8) :
    Option (CcsdsFramer × List (List UInt8)) :=
  if data.length = 0 then some (framer, [])
  else loopWithin declaredPacketSize turns { framer with acc := framer.acc ++ data }

end ExnGs.Framer
