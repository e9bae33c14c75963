set_option autoImplicit false

namespace ExnGs

-- `std::string`: a sequence of bytes, not necessarily text in any encoding.
abbrev Text := List UInt8

def text (literal : String) : Text := literal.toList.map fun c => UInt8.ofNat c.toNat

inductive Direction
  | TC
  | TM
  deriving DecidableEq, Repr

inductive LinkState
  | Disconnected
  | Connected
  | Error
  deriving DecidableEq, Repr

structure PacketRecord where
  tsNs : UInt64
  dir : Direction
  apid : UInt16
  seq : UInt16
  service : UInt8
  subservice : UInt8
  summary : Text
  raw : List UInt8
  deriving DecidableEq, Repr

-- `std::shared_ptr<std::vector<uint8_t>>`: `id` tells two vectors with equal contents apart.
structure SharedBytes where
  id : Nat
  bytes : List UInt8
  deriving DecidableEq, Repr

/-- How an asynchronous operation ended: with an error's message, or with the bytes it delivered
(none, for anything but a read). -/
abbrev Completion := Except Text (List UInt8)

end ExnGs
