import PacketProtocol.Transport
/-!
# Outboxes

A transport that only keeps what is to be written, for the one who writes it to a stream. It never
refuses anything.
-/

namespace PacketProtocol

/-- Something to be written. -/
inductive Outgoing where
  | message (bytes : Bytes)
  | close (code : CloseCode) (reason : String)
deriving DecidableEq, Repr

structure Outbox where
  /-- What is to be written, oldest first. -/
  waiting : List Outgoing := []
deriving DecidableEq, Repr, Inhabited

namespace Outbox

def send (outbox : Outbox) (message : Bytes) : Result Unit × Outbox :=
  (.ok (), ⟨outbox.waiting ++ [.message message]⟩)

def close (outbox : Outbox) (code : CloseCode) (reason : String) : Outbox :=
  ⟨outbox.waiting ++ [.close code reason]⟩

instance : Transport Outbox where
  send := send
  close := close

end Outbox

end PacketProtocol
