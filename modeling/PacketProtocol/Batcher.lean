import PacketProtocol.Error
import PacketProtocol.Parser
/-!
# Batches

Payloads of one packet gathered into one message: the key once, then each payload as a fragment
behind its length. `Batcher.message` writes such a message, `unravel` takes its body apart.
-/

namespace PacketProtocol

/-- The payloads of one packet that wait for the next flush. -/
structure Batcher where
  key : UInt8
  /-- Most payloads that wait; zero for no limit. -/
  maxBatch : UInt32
  /-- Oldest first. -/
  pending : List Bytes := []
deriving DecidableEq, Repr, Inhabited

namespace Batcher

/-- A payload behind its length. -/
def fragment (payload : Bytes) : Bytes := Varint.groups payload.length ++ payload

/-- The message with these payloads. -/
def message (key : UInt8) (payloads : List Bytes) : Bytes := key :: payloads.flatMap fragment

def size (batcher : Batcher) : Nat := batcher.pending.length

/-- Whether no more payloads may wait. -/
def isFull (batcher : Batcher) : Bool :=
  0 < batcher.maxBatch && batcher.maxBatch.toNat ≤ batcher.size

/-- Adds a payload. When no more may wait it comes back as a message of its own, to be sent at once,
and those that wait are left alone. -/
def add (batcher : Batcher) (payload : Bytes) :
    Except EncodeFault (Option Bytes × Batcher) :=
  if Varint.bound ≤ payload.length then .error (.varintRange payload.length Varint.bound)
  else if batcher.isFull then .ok (some (message batcher.key [payload]), batcher)
  else .ok (none, { batcher with pending := batcher.pending ++ [payload] })

def clear (batcher : Batcher) : Batcher := { batcher with pending := [] }

/-- The message with all waiting payloads, if any wait, and the batcher without them. -/
def flush (batcher : Batcher) : Option Bytes × Batcher :=
  if batcher.pending.isEmpty then (none, batcher)
  else (some (message batcher.key batcher.pending), batcher.clear)

/-- The fragments of a body that had `total` octets, at most `maxBatch` of them if that is not zero;
`found` were taken already. -/
def fragments (maxBatch : UInt32) (total : Nat) (found : Nat) (body : Bytes) :
    Except BatchFault (List Bytes) :=
  if body.isEmpty then .ok []
  else if 0 < maxBatch ∧ maxBatch.toNat ≤ found then .error (.tooMany maxBatch)
  else
    match h : Varint.decode body with
    | .error fault => .error (.badLength fault)
    | .ok (length, rest) =>
      if rest.length < length then .error (.overrun length (total - rest.length))
      else
        have := Varint.length_lt_of_decode h
        match fragments maxBatch total (found + 1) (rest.drop length) with
        | .error fault => .error fault
        | .ok others => .ok (rest.take length :: others)
termination_by body.length
decreasing_by simp only [List.length_drop]; omega

/-- Takes the body of a batch apart. An empty body is no batch. -/
def unravel (tag : String) (body : Bytes) (maxBatch : UInt32) : Result (List Bytes) :=
  if body.isEmpty then .error (.batchCorrupt tag .empty)
  else (fragments maxBatch body.length 0 body).mapError (.batchCorrupt tag)

end Batcher

end PacketProtocol
