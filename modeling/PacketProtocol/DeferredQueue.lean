import PacketProtocol.RateLimiter
/-!
# Deferred payloads

Encoded payloads that the rate limit holds back, first in first out for each key. `drainAdmitted`
releases what a limiter lets through, key after key.
-/

namespace PacketProtocol

open scoped Numerals

/-- Waiting payloads by key, keys increasing. -/
structure DeferredQueue where
  queues : List (UInt8 × List Bytes)
  /-- Most payloads of one key; zero for no limit. -/
  maxPerKey : Nat
deriving DecidableEq, Repr, Inhabited

namespace DeferredQueue

def empty (maxPerKey : Nat) : DeferredQueue := ⟨[], maxPerKey⟩

/-- The payloads waiting under a key, oldest first. -/
def waiting (queue : DeferredQueue) (key : UInt8) : List Bytes :=
  (queue.queues.lookup key).getD []

def isWaiting (queue : DeferredQueue) (key : UInt8) : Bool := !(queue.waiting key).isEmpty

def length (queue : DeferredQueue) (key : UInt8) : Nat := (queue.waiting key).length

def total (queue : DeferredQueue) : Nat := (queue.queues.map fun entry => entry.2.length).sum

/-- Puts a payload behind those of its key. -/
def appendTo (key : UInt8) (payload : Bytes) : List (UInt8 × List Bytes) → List (UInt8 × List Bytes)
  | [] => [(key, [payload])]
  | (other, payloads) :: rest =>
    if key < other then (key, [payload]) :: (other, payloads) :: rest
    else if key = other then (other, payloads ++ [payload]) :: rest
    else (other, payloads) :: appendTo key payload rest

/-- The queue with one more payload, unless those of its key are as many as there may be. -/
def push? (queue : DeferredQueue) (key : UInt8) (payload : Bytes) : Option DeferredQueue :=
  if 0 < queue.maxPerKey ∧ queue.maxPerKey ≤ queue.length key then none
  else some { queue with queues := appendTo key payload queue.queues }

/-- Takes payloads of one key while the limiter has allowance left: those taken, those left. -/
def admitQueue (limiter : RateLimiter) (key : UInt8) : List Bytes → RateLimiter × List Bytes × List Bytes
  | [] => (limiter, [], [])
  | payload :: rest =>
    if limiter.remaining key = some 0 then (limiter, [], payload :: rest)
    else
      let (limiter, taken, left) := admitQueue (limiter.hit key).2 key rest
      (limiter, payload :: taken, left)

/-- Takes payloads key after key: those taken with their keys, and the queues that are not empty. -/
def admitAll (limiter : RateLimiter) :
    List (UInt8 × List Bytes) → RateLimiter × List (UInt8 × Bytes) × List (UInt8 × List Bytes)
  | [] => (limiter, [], [])
  | (key, payloads) :: rest =>
    let (limiter, taken, left) := admitQueue limiter key payloads
    let (limiter, takenAfter, leftAfter) := admitAll limiter rest
    (limiter, taken.map (key, ·) ++ takenAfter,
      if left.isEmpty then leftAfter else (key, left) :: leftAfter)

/-- Releases every payload the limiter admits, counting each, in key order and then in the order of
sending. -/
def drainAdmitted (queue : DeferredQueue) (limiter : RateLimiter) :
    List (UInt8 × Bytes) × DeferredQueue × RateLimiter :=
  let (limiter, released, left) := admitAll limiter queue.queues
  (released, { queue with queues := left }, limiter)

def clear (queue : DeferredQueue) : DeferredQueue := { queue with queues := [] }

end DeferredQueue

end PacketProtocol
