import PacketProtocol.Payload.Encode
/-!
# Decoding payloads

`PayloadKind.fits` is a cheap look at the shape of some octets: could they hold a payload of the
kind with at most `capacity` counted units? `PayloadKind.decode` reads the values; it refuses what
does not fit.
-/

namespace PacketProtocol.PayloadKind

/-- A list cut into pieces of `width`, the last one shorter if it does not come out even. -/
def pieces {α : Type} (width : Nat) (list : List α) : List (List α) :=
  if list.isEmpty ∨ width = 0 then []
  else list.take width :: pieces width (list.drop width)
termination_by list.length
decreasing_by
  have := List.length_pos_iff.2 (show list ≠ [] by simp_all)
  simp only [List.length_drop]; omega

/-! ## Shape -/

/-- At most `room` texts behind their lengths. -/
def fitsTexts : Nat → Bytes → Bool
  | _, [] => true
  | 0, _ :: _ => false
  | room + 1, bytes@(_ :: _) =>
    match Varint.decode bytes with
    | .error _ => false
    | .ok (length, rest) => length ≤ rest.length && fitsTexts room (rest.drop length)

/-- At most `room` pairs of varints. -/
def fitsPairs : Nat → Bytes → Bool
  | _, [] => true
  | 0, _ :: _ => false
  | room + 1, bytes@(_ :: _) =>
    match Varint.decode bytes with
    | .error _ => false
    | .ok (_, rest) =>
      match Varint.decode rest with
      | .error _ => false
      | .ok (_, rest) => fitsPairs room rest

/-- Whether octets have the shape of a payload of at most `capacity` units. A character takes one to
four octets. -/
def fits (kind : PayloadKind) (bytes : Bytes) (capacity : Nat) : Bool :=
  match kind with
  | none => bytes.isEmpty
  | raw => bytes.length ≤ 4 * capacity
  | strings => fitsTexts capacity bytes
  | intsFixed => bytes.length % 2 == 0 && bytes.length / 2 ≤ capacity
  | intsDynamic =>
    match bytes with
    | [] => true
    | width :: rest =>
      let width := width.toNat
      1 ≤ width && width ≤ Sector.maxUnits && !rest.isEmpty && rest.length % width == 0 &&
        rest.length / width ≤ capacity
  | decimals => fitsPairs capacity bytes
  | booleans => bytes.length ≤ Flags.packedLength capacity
  | enum package =>
    bytes.length ≤ capacity && bytes.all fun index => index.toNat < package.members.length
  | floats => bytes.length % 4 == 0 && bytes.length / 4 ≤ capacity

/-! ## Values -/

def decodeInt (units : Bytes) : Except DecodeFault Value := Value.int <$> Sector.decode units

/-- The member at an index. -/
def decodeMember (package : EnumPackage) (index : UInt8) : Except DecodeFault Value :=
  match package.members[index.toNat]? with
  | some member => .ok member
  | .none => .error .enumIndex

/-- The values in octets of a kind, whose shape is taken as given. -/
def read (kind : PayloadKind) (bytes : Bytes) (capacity : Nat) : Except DecodeFault (List Value) :=
  match kind with
  | none => .ok []
  | raw =>
    match Utf8.decode bytes with
    | some text => .ok [.string text]
    | .none => .error .invalidUtf8
  | strings => Parser.many (Value.string <$> Parser.text) bytes
  | intsFixed => (pieces 2 bytes).mapM decodeInt
  | intsDynamic =>
    match bytes with
    | [] => .ok []
    | width :: rest => (pieces width.toNat rest).mapM decodeInt
  | decimals => Parser.many (Value.number <$> Fraction.parser) bytes
  | booleans => .ok (((Flags.unpack bytes).take capacity).map .bool)
  | enum package => bytes.mapM (decodeMember package)
  | floats => .ok ((pieces 4 bytes).map fun octets => .number (Binary32.decode octets).toBinary64)

/-- The values in octets of a kind, at most `capacity` counted units of them. -/
def decode (kind : PayloadKind) (bytes : Bytes) (capacity : Nat) :
    Except DecodeFault (List Value) := do
  if !kind.fits bytes capacity then
    throw .capacity
  let values ← kind.read bytes capacity
  if capacity < kind.count values then
    throw .capacity
  return values

end PacketProtocol.PayloadKind
