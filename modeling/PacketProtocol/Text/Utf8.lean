import PacketProtocol.Bytes
/-!
# UTF-8

Texts are `String`s; their octets are the UTF-8 form. `decode` accepts exactly the octets of some
text. `decodeLossy` reads any octets, one replacement character for each longest run of octets that
begins a character and cannot be finished.
-/

namespace PacketProtocol.Utf8

open scoped Numerals

/-- The octets of a text. -/
def encode (text : String) : Bytes := text.toUTF8.data.toList

/-- The text with these octets. -/
def decode (bytes : Bytes) : Option String := String.fromUTF8? ⟨bytes.toArray⟩

@[simp]
theorem decode_encode (text : String) : decode (encode text) = some text := by
  simp [decode, encode, String.fromUTF8?, String.toUTF8, String.fromUTF8, text.isValidUTF8]

/-! ## Reading any octets -/

def replacement : Char := '\ufffd'

/-- Bounds of the octet after a leading one, and how many octets follow it in all. Overlong forms,
surrogates and numbers past the last character are shut out by the bounds. -/
def following (lead : UInt8) : Option (UInt8 × UInt8 × Nat) :=
  if lead < 0xC2 then none
  else if lead < 0xE0 then some (0x80, 0xBF, 1)
  else if lead = 0xE0 then some (0xA0, 0xBF, 2)
  else if lead = 0xED then some (0x80, 0x9F, 2)
  else if lead < 0xF0 then some (0x80, 0xBF, 2)
  else if lead = 0xF0 then some (0x90, 0xBF, 3)
  else if lead < 0xF4 then some (0x80, 0xBF, 3)
  else if lead = 0xF4 then some (0x80, 0x8F, 3)
  else none

/-- The character that begins with the given octet, and how many of the octets after it were used.
`low` and `high` bound the next octet; `code` gathers what was read. -/
def scalarAfter : Nat → UInt8 → UInt8 → Nat → Bytes → Char × Nat
  | 0, _, _, code, _ => (Char.ofNat code, 0)
  | _ + 1, _, _, _, [] => (replacement, 0)
  | missing + 1, low, high, code, octet :: rest =>
    if low ≤ octet ∧ octet ≤ high then
      let (c, used) := scalarAfter missing 0x80 0xBF (code * 64 + octet.toNat % 64) rest
      (c, used + 1)
    else (replacement, 0)

/-- The first character of non-empty octets, and how many octets after the first it used. -/
def firstScalar (lead : UInt8) (rest : Bytes) : Char × Nat :=
  if lead < 0x80 then (Char.ofNat lead.toNat, 0)
  else
    match following lead with
    | none => (replacement, 0)
    | some (low, high, count) => scalarAfter count low high (lead.toNat % 2 ^ (6 - count)) rest

/-- The characters of any octets. -/
def scalars : Bytes → List Char
  | [] => []
  | lead :: rest => (firstScalar lead rest).1 :: scalars (rest.drop (firstScalar lead rest).2)
termination_by bytes => bytes.length
decreasing_by simp only [List.length_drop, List.length_cons]; omega

/-- The text of any octets. -/
def decodeLossy (bytes : Bytes) : String := String.ofList (scalars bytes)

end PacketProtocol.Utf8
