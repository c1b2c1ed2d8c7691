/-!
# Numerals

Numbers in text: `number?` reads digits of a base, `unsigned?` an unsigned number as settings write
it, with an optional plus sign and any leading zeros.
-/

namespace PacketProtocol.Text

/-- The value of a digit; letters of either case go on after nine. -/
def digit? (base : Nat) (c : Char) : Option Nat :=
  let value :=
    if '0' ≤ c ∧ c ≤ '9' then c.toNat - '0'.toNat
    else if 'a' ≤ c ∧ c ≤ 'z' then c.toNat - 'a'.toNat + 10
    else if 'A' ≤ c ∧ c ≤ 'Z' then c.toNat - 'A'.toNat + 10
    else base
  if value < base then some value else none

/-- The number with these digits, of which there must be one at least. -/
def number? (base : Nat) (digits : List Char) : Option Nat :=
  if digits.isEmpty then none
  else digits.foldlM (fun n c => (digit? base c).map fun digit => base * n + digit) 0

/-- An unsigned number up to a bound. -/
def unsigned? (bound : Nat) (text : String) : Option Nat :=
  let digits := match text.toList with
    | '+' :: digits => digits
    | digits => digits
  (number? 10 digits).filter (· ≤ bound)

end PacketProtocol.Text
