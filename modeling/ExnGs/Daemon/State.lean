import ExnGs.Shared.Types

set_option autoImplicit false

namespace ExnGs.Daemon

structure ServiceStatus where
  lastSeenNs : UInt64
  deriving DecidableEq, Repr

structure StateSnapshot where
  link : LinkState := .Disconnected
  linkDetail : Text := []
  rxPackets : UInt64 := 0
  rxBytes : UInt64 := 0
  txPackets : UInt64 := 0
  txBytes : UInt64 := 0
  decodeErrors : UInt64 := 0
  framingErrors : UInt64 := 0
  services : UInt8 → Option ServiceStatus := fun _ => none

structure StateStore where
  cap : Nat := 1000
  snap : StateSnapshot := {}
  ring : List PacketRecord := []

namespace StateStore

def setLink (s : StateStore) (st : LinkState) (detail : Text) : StateStore :=
  { s with snap := { s.snap with link := st, linkDetail := detail } }

def onPacket (s : StateStore) (record : PacketRecord) : StateStore :=
  let services := fun key =>
    if key = record.service then some { lastSeenNs := record.tsNs } else s.snap.services key
  let ring := s.ring ++ [record]
  { s with
    snap := { s.snap with
      rxPackets := s.snap.rxPackets + 1
      rxBytes := s.snap.rxBytes + UInt64.ofNat record.raw.length
      services }
    -- `pop_front` while the ring is longer than its capacity.
    ring := ring.drop (ring.length - s.cap) }

def onTx (s : StateStore) (bytes : Nat) : StateStore :=
  { s with snap := { s.snap with
      txPackets := s.snap.txPackets + 1
      txBytes := s.snap.txBytes + UInt64.ofNat bytes } }

def onDecodeError (s : StateStore) : StateStore :=
  { s with snap := { s.snap with decodeErrors := s.snap.decodeErrors + 1 } }

def onFramingError (s : StateStore) : StateStore :=
  { s with snap := { s.snap with framingErrors := s.snap.framingErrors + 1 } }

def snapshot (s : StateStore) : StateSnapshot := s.snap

-- Where the iterators are used `n` is below the size, and so is what `static_cast<long>` makes of it.
def lastPackets (s : StateStore) (n : Nat) : List PacketRecord :=
  if s.ring.length ≤ n then s.ring else s.ring.drop (s.ring.length - n)

end StateStore

end ExnGs.Daemon
