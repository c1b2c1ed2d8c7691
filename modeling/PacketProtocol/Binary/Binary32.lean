import PacketProtocol.Binary.Binary64
/-!
# Single precision

A single is its bit pattern. On the wire it is assembled from sign, biased exponent and fraction:
the exponent is found by correcting any starting guess, so no logarithm has to be exact.
-/

namespace PacketProtocol

open scoped Numerals

/-- A single-precision number by its 32 bits. -/
structure Binary32 where
  bits : UInt32
deriving DecidableEq, Repr

namespace Binary32

/-- The bits without the sign. -/
def magnitude (x : Binary32) : Nat := x.bits.toNat % 2 ^ (31 : Nat)

/-- The sign bit. -/
def negative (x : Binary32) : Bool := 2 ^ (31 : Nat) ≤ x.bits.toNat

def ofParts (negative : Bool) (magnitude : Nat) : Binary32 :=
  ⟨UInt32.ofNat (magnitude + if negative then 2 ^ (31 : Nat) else 0)⟩

/-- The quiet NaN with an empty payload. -/
def nan : Binary32 := ⟨0x7fc00000⟩

def isNaN (x : Binary32) : Bool := Format.binary32.infinity < x.magnitude

def isFinite (x : Binary32) : Bool := x.magnitude < Format.binary32.infinity

/-- The exact absolute value of a finite number. -/
def scaled (x : Binary32) : Scaled := Format.binary32.scaled x.magnitude

/-- The single nearest to a scaled integer with the given sign. -/
def ofScaled (negative : Bool) (x : Scaled) : Binary32 :=
  ofParts negative (Format.binary32.round x.numerator x.denominator)

/-- The same number as a double. -/
def toBinary64 (x : Binary32) : Binary64 :=
  if x.isNaN then .nan
  else if x.isFinite then .ofRatio x.negative x.scaled.numerator x.scaled.denominator
  else .ofParts x.negative Format.binary64.infinity

/-- The single nearest to a double. -/
def ofBinary64 (x : Binary64) : Binary32 :=
  if x.isNaN then nan
  else if x.isFinite then ofScaled x.negative x.scaled
  else ofParts x.negative Format.binary32.infinity

/-! ## Assembly -/

/-- Steps down from `exponent` to one whose power of two the number reaches. At the number's own
scale its significand alone is enough, so the steps end there. -/
def lowerExponent (x : Scaled) (exponent : Int) : Int :=
  if x.scale < exponent ∧ ¬ x.reaches exponent then lowerExponent x (exponent - 1) else exponent
termination_by (exponent - x.scale).toNat

theorem lt_of_reaches {x : Scaled} {exponent : Int} (h : x.reaches exponent) :
    exponent < x.scale + x.significand.log2 + 1 := by
  simp only [Scaled.reaches, decide_eq_true_eq] at h
  by_cases hs : exponent ≤ x.scale
  · omega
  · have hz : (x.scale - exponent).toNat = 0 := by omega
    rw [hz, Nat.pow_zero, Nat.mul_one] at h
    have hne : x.significand ≠ 0 := by
      intro h0
      have := Nat.two_pow_pos (exponent - x.scale).toNat
      omega
    have := (Nat.le_log2 hne).2 h
    omega

/-- Steps up from `exponent` while the next power of two is reached. -/
def raiseExponent (x : Scaled) (exponent : Int) : Int :=
  if x.reaches (exponent + 1) then raiseExponent x (exponent + 1) else exponent
termination_by (x.scale + x.significand.log2 - exponent).toNat
decreasing_by
  have := lt_of_reaches ‹_›
  omega

/-- The exponent `e` with `2 ^ e ≤ x < 2 ^ (e + 1)`, found from any guess, for a positive `x`. -/
def exponentFrom (guess : Int) (x : Scaled) : Int :=
  raiseExponent x (lowerExponent x guess)

/-- The magnitude of a positive number from its exponent and fraction fields. An exponent field that
would not fit gives infinity; one below 1 stays zero, and the fraction has no implicit bit. -/
def assemble (guess : Int) (x : Scaled) : Nat :=
  let exponent := exponentFrom guess x
  let biased := exponent + 127
  if 255 ≤ biased then Format.binary32.infinity
  else if biased ≤ 0 then x.floorAt (-149)
  else biased.toNat * 2 ^ (23 : Nat) + (x.floorAt (exponent - 23) - 2 ^ (23 : Nat))

/-- The bits put on the wire, the exponent search starting from `guess`. Every NaN is sent as one. -/
def wireBits (guess : Int) (x : Binary32) : Nat :=
  if x.isNaN then nan.bits.toNat
  else
    let sign := if x.negative then 2 ^ (31 : Nat) else 0
    if x.magnitude = 0 then sign
    else if x.isFinite then sign + assemble guess x.scaled
    else sign + Format.binary32.infinity

/-- A first guess at a number's exponent. -/
def estimate (x : Scaled) : Int := x.scale + x.significand.log2

/-- The four octets of a single. -/
def encode (x : Binary32) : Bytes := Bytes.bigEndian 4 (wireBits (estimate x.scaled) x)

/-- The single whose octets these are, put together from its fields. -/
def decode (bytes : Bytes) : Binary32 :=
  let bits : Nat := Bytes.toNat bytes % 2 ^ (32 : Nat)
  let negative := decide (2 ^ (31 : Nat) ≤ bits)
  let exponent : Nat := bits / 2 ^ (23 : Nat) % 2 ^ (8 : Nat)
  let fraction : Nat := bits % 2 ^ (23 : Nat)
  if exponent = 255 then
    if fraction = 0 then ofParts negative Format.binary32.infinity else nan
  else if exponent = 0 then ofScaled negative ⟨fraction, -149⟩
  else ofScaled negative ⟨fraction + 2 ^ (23 : Nat), (exponent : Int) - 150⟩

end Binary32

end PacketProtocol
