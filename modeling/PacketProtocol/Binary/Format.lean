import PacketProtocol.Binary.Scaled
/-!
# Binary floating-point formats

A format is given by the widths of its fraction and exponent fields. A magnitude is the bit pattern
without the sign, as a natural number; magnitudes are ordered as the numbers they stand for.
`Format.scaled` says which number a finite magnitude stands for, `Format.round` finds the magnitude
nearest to a fraction, a tie going to the even pattern.
-/

namespace PacketProtocol

open scoped Numerals

/-- The quotient of two natural numbers to the nearest whole number, a tie going to the even one. -/
def roundEven (num den : Nat) : Nat :=
  let quotient := num / den
  let rest := num % den
  if den < 2 * rest ∨ (2 * rest = den ∧ quotient % 2 = 1) then quotient + 1 else quotient

/-- The largest `e` with `2 ^ e ≤ num / den`, for positive `num` and `den`. -/
def floorLog2 (num den : Nat) : Int :=
  let guess : Int := (num.log2 : Int) - den.log2
  if num * 2 ^ (-guess).toNat < den * 2 ^ guess.toNat then guess - 1 else guess

/-- Field widths of a binary format: a sign bit, then the exponent, then the fraction. -/
structure Format where
  fractionBits : Nat
  exponentBits : Nat
deriving DecidableEq, Repr

namespace Format

def binary64 : Format := ⟨52, 11⟩

def binary32 : Format := ⟨23, 8⟩

/-- Scale of the smallest positive number of the format. -/
def minScale (f : Format) : Int := 2 - 2 ^ (f.exponentBits - 1) - f.fractionBits

/-- The magnitude of infinity; larger magnitudes are no numbers. -/
def infinity (f : Format) : Nat := (2 ^ f.exponentBits - 1) * 2 ^ f.fractionBits

/-- The number a finite magnitude stands for. A zero exponent field has no implicit leading bit. -/
def scaled (f : Format) (magnitude : Nat) : Scaled :=
  let exponent := magnitude / 2 ^ f.fractionBits
  if exponent = 0 then ⟨magnitude, f.minScale⟩
  else ⟨magnitude % 2 ^ f.fractionBits + 2 ^ f.fractionBits, f.minScale + (exponent - 1 : Nat)⟩

/-- The magnitude nearest to `num / den`. The scale is that of the last bit kept; a carry out of the
fraction falls into the exponent field, as it should. -/
def round (f : Format) (num den : Nat) : Nat :=
  if num = 0 then 0
  else
    let scale := max (floorLog2 num den - f.fractionBits) f.minScale
    let significand := roundEven (num * 2 ^ (-scale).toNat) (den * 2 ^ scale.toNat)
    min ((scale - f.minScale).toNat * 2 ^ f.fractionBits + significand) f.infinity

end Format

end PacketProtocol
