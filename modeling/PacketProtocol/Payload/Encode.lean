import PacketProtocol.Binary.Binary32
import PacketProtocol.Flags
import PacketProtocol.Payload.Fraction
import PacketProtocol.Payload.Kind
import PacketProtocol.Sector
/-!
# Encoding payloads

`PayloadKind.encode` writes a list of values as octets of a kind. Bounds on how many values there
may be belong to the schema, not here.
-/

namespace PacketProtocol.PayloadKind

/-- Largest magnitude that two sectors hold. -/
def fixedIntBound : Nat := 16383

/-- What `read` finds in a value, or the fault that this kind cannot hold it. -/
def expect {α : Type} (kind : PayloadKind) (read : Value → Option α) (value : Value) :
    Except EncodeFault α :=
  match read value with
  | some a => .ok a
  | .none => .error (.mismatch kind.name value.kind)

/-- A text behind its length. -/
def encodeText (value : Value) : Except EncodeFault Bytes := do
  let text ← strings.expect Value.string? value
  return (← Varint.encode text.utf8ByteSize) ++ Utf8.encode text

/-- A small integer in two sectors. -/
def encodeFixedInt (value : Value) : Except EncodeFault Bytes := do
  let n ← intsFixed.expect Value.int? value
  if fixedIntBound < n.toInt.natAbs then
    throw (.fixedIntRange n.toInt fixedIntBound)
  Sector.encode n 2

/-- Integers in equally many sectors, that number in front. No integers take no octets. -/
def encodeInts (values : List Value) : Except EncodeFault Bytes := do
  let ints ← values.mapM (intsDynamic.expect Value.int?)
  match (ints.map Sector.size).max? with
  | .none => return []
  | some width => return UInt8.ofNat width :: (← ints.mapM (Sector.encode · width)).flatten

/-- The index of the member a value agrees with. -/
def encodeMember (package : EnumPackage) (value : Value) : Except EncodeFault UInt8 :=
  match package.indexOf? value with
  | some index => .ok (UInt8.ofNat index)
  | .none => .error (.notAMember value package.tag)

/-- Values as octets of a kind. -/
def encode (kind : PayloadKind) (values : List Value) : Except EncodeFault Bytes :=
  match kind with
  | none => if values.isEmpty then .ok [] else .error (.unexpectedValues values.length)
  | raw =>
    match values with
    | [.string text] => .ok (Utf8.encode text)
    | _ => .error .notOneString
  | strings => return (← values.mapM encodeText).flatten
  | intsFixed => return (← values.mapM encodeFixedInt).flatten
  | intsDynamic => encodeInts values
  | decimals => return (← values.mapM fun value => do
      Fraction.encode (← decimals.expect Value.number? value)).flatten
  | booleans => return Flags.pack (← values.mapM (booleans.expect Value.bool?))
  | enum package => values.mapM (encodeMember package)
  | floats => return (← values.mapM fun value => do
      return (Binary32.ofBinary64 (← floats.expect Value.number? value)).encode).flatten

end PacketProtocol.PayloadKind
