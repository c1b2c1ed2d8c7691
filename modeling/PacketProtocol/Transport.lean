import PacketProtocol.Error
import PacketProtocol.Bytes
/-!
# Transports and schedulers

What a connection needs from outside: something that writes whole messages and may refuse to, and
something that keeps timers. A timer that fires is brought to the connection by its kind.
-/

namespace PacketProtocol

/-- Writes the messages of one connection. -/
class Transport (T : Type) where
  /-- Writes one message, or says why not. -/
  send : T → Bytes → Result Unit × T
  /-- Closes the connection underneath. -/
  close : T → CloseCode → String → T

/-- What a timer is for. -/
inductive TimerKind where
  /-- The boundary of a rate window. -/
  | rateReset
  /-- Flushes the batch of the packet with a key. -/
  | batchFlush (key : UInt8)
  /-- Gives up on a handshake that is not complete. -/
  | handshakeExpiry
deriving DecidableEq, Repr, Inhabited

namespace TimerKind

/-- How traces name the kind. -/
def label : TimerKind → String
  | .rateReset => "rate"
  | .batchFlush key => s!"flush:{key}"
  | .handshakeExpiry => "expiry"

/-- All kinds there are. -/
def all : List TimerKind :=
  .rateReset :: .handshakeExpiry :: (List.range 256).map fun key => .batchFlush (UInt8.ofNat key)

/-- The kind that traces name so. -/
def ofLabel? (text : String) : Option TimerKind := all.find? fun kind => kind.label == text

end TimerKind

/-- The number of a timer, by which it is cancelled. -/
abbrev TimerHandle := Nat

/-- Keeps the timers of one connection. Times are in milliseconds. -/
class Scheduler (S : Type) where
  /-- A timer that fires again and again. -/
  scheduleRepeating : S → TimerKind → (interval : Nat) → TimerHandle × S
  /-- A timer that fires once. -/
  scheduleOnce : S → TimerKind → (delay : Nat) → TimerHandle × S
  /-- Takes a timer away, if it is still there. -/
  cancel : S → TimerHandle → S

end PacketProtocol
