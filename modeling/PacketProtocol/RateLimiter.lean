import PacketProtocol.Registry
/-!
# Rate limits

Counters of one connection and direction, one for each packet, set back at every window boundary. A
cap of zero limits nothing. Keys without a counter are not limited.
-/

namespace PacketProtocol

open scoped Numerals

/-- The packets counted under one key in this window, and the most there may be. -/
structure Allowance where
  cap : Nat
  used : Nat
deriving DecidableEq, Repr, Inhabited

/-- Allowances in key order; the first is that of key 1. -/
structure RateLimiter where
  allowances : List Allowance
deriving DecidableEq, Repr, Inhabited

namespace RateLimiter

/-- Counters stay at this number once they reach it. -/
def maxCount : Nat := 2 ^ (32 : Nat) - 1

/-- Fresh counters with the caps of a registry's packets. -/
def ofRegistry (registry : Registry) : RateLimiter :=
  ⟨registry.packets.map fun packet => ⟨packet.schema.rateLimit.toNat, 0⟩⟩

/-- Limits nothing. -/
def unlimited : RateLimiter := ⟨[]⟩

def allowance? (limiter : RateLimiter) (key : UInt8) : Option Allowance :=
  if key = 0 then none else limiter.allowances[key.toNat - 1]?

def cap (limiter : RateLimiter) (key : UInt8) : Nat := ((limiter.allowance? key).map (·.cap)).getD 0

def isLimited (limiter : RateLimiter) (key : UInt8) : Bool := 0 < limiter.cap key

/-- Packets counted in this window. -/
def count (limiter : RateLimiter) (key : UInt8) : Nat :=
  ((limiter.allowance? key).map (·.used)).getD 0

/-- Counts a packet: whether it is within the cap, and the counters after it. -/
def hit (limiter : RateLimiter) (key : UInt8) : Bool × RateLimiter :=
  match limiter.allowance? key with
  | none => (true, limiter)
  | some a =>
    if a.cap = 0 then (true, limiter)
    else
      let used := min (a.used + 1) maxCount
      (used ≤ a.cap, ⟨limiter.allowances.set (key.toNat - 1) { a with used }⟩)

/-- Counts packets one after the other up to the first that is not within the cap. -/
def hitTimes (limiter : RateLimiter) (key : UInt8) : Nat → Bool × RateLimiter
  | 0 => (true, limiter)
  | times + 1 =>
    match limiter.hit key with
    | (true, limiter) => hitTimes limiter key times
    | (false, limiter) => (false, limiter)

/-- Packets that may still be counted in this window; `none` without a limit. -/
def remaining (limiter : RateLimiter) (key : UInt8) : Option Nat :=
  match limiter.allowance? key with
  | none => none
  | some a => if a.cap = 0 then none else some (a.cap - a.used)

/-- The window boundary. -/
def reset (limiter : RateLimiter) : RateLimiter :=
  ⟨limiter.allowances.map fun a => { a with used := 0 }⟩

end RateLimiter

end PacketProtocol
