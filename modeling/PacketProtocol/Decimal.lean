import PacketProtocol.Numerals
/-!
# Decimal numbers

Non-negative decimal fractions with a fixed number of places, `unscaled / 10 ^ places`, and their
positional text. `mirrored` carries a fraction as one integer whose digits run backwards, so that
leading zeros of the fraction survive; `ofMirrored` reads such an integer.
-/

namespace PacketProtocol

open scoped Numerals

/-- The number `unscaled / 10 ^ places`. -/
structure Decimal where
  unscaled : Nat
  places : Nat
deriving DecidableEq, Repr

namespace Decimal

/-- The low `count` decimal digits of a number, most significant first. -/
def digits : Nat → Nat → List Nat
  | 0, _ => []
  | count + 1, n => n / 10 ^ count % 10 :: digits count n

/-- The number whose decimal digits are given least significant first. -/
def ofDigits : List Nat → Nat
  | [] => 0
  | digit :: rest => digit + 10 * ofDigits rest

/-- The decimal digits of a number, least significant first; zero has none. -/
def digitsUp (n : Nat) : List Nat :=
  if n = 0 then [] else n % 10 :: digitsUp (n / 10)

/-- The whole part. -/
def whole (d : Decimal) : Nat := d.unscaled / 10 ^ d.places

/-- The digits after the point, tenths first. -/
def fraction (d : Decimal) : List Nat := digits d.places d.unscaled

/-- Positional text: no exponent, and a point only before at least one digit. -/
def text (d : Decimal) : String :=
  if d.places = 0 then toString d.unscaled
  else toString d.whole ++ "." ++ String.ofList (d.fraction.map Nat.digitChar)

/-- Drops zeros at the end of the fraction. -/
def trimFrom (unscaled : Nat) : Nat → Decimal
  | 0 => ⟨unscaled, 0⟩
  | places + 1 => if unscaled % 10 = 0 then trimFrom (unscaled / 10) places else ⟨unscaled, places + 1⟩

/-- The same number without zeros at the end of the fraction. -/
def trim (d : Decimal) : Decimal := trimFrom d.unscaled d.places

/-- The digits after the point as one integer, tenths in its units. -/
def mirrored (d : Decimal) : Nat := ofDigits d.fraction

/-- The decimal with this whole part whose fraction, mirrored, is `fraction`. -/
def ofMirrored (whole fraction : Nat) : Decimal :=
  let places := digitsUp fraction
  ⟨whole * 10 ^ places.length + ofDigits places.reverse, places.length⟩

end Decimal

end PacketProtocol
