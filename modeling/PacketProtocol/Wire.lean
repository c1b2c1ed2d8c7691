import PacketProtocol.Transport
/-!
# Wires

A transport in memory: it keeps the messages written until they are taken, and refuses more once it
is closed. The first close counts.
-/

namespace PacketProtocol

structure Wire where
  /-- Messages not yet taken, oldest first. -/
  sent : List Bytes := []
  /-- Code and reason of the first close. -/
  closed : Option (CloseCode × String) := none
deriving DecidableEq, Repr, Inhabited

namespace Wire

def send (wire : Wire) (message : Bytes) : Result Unit × Wire :=
  if wire.closed.isSome then (.error .connectionClosed, wire)
  else (.ok (), { wire with sent := wire.sent ++ [message] })

def close (wire : Wire) (code : CloseCode) (reason : String) : Wire :=
  if wire.closed.isSome then wire else { wire with closed := some (code, reason) }

/-- The messages written since they were last taken. -/
def take (wire : Wire) : List Bytes × Wire := (wire.sent, { wire with sent := [] })

instance : Transport Wire where
  send := send
  close := close

end Wire

end PacketProtocol
