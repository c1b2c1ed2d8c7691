import PacketProtocol.Packet.Basic
/-!
# Packet records

The written form of a packet, by which a server announces it. The first octet holds flags and is
never the delimiter; then come the slot count of an object, the bounds and kinds of the slots, the
delivery settings and the tag. Validators do not travel.
-/

namespace PacketProtocol.Packet

/-- A flag's weight if it is set. -/
def flag (weight : Nat) (isSet : Bool) : Nat := if isSet then weight else 0

/-- The first octet of a record: 128 always, then one weight per flag. -/
def flags (packet : Packet) : UInt8 :=
  UInt8.ofNat (128 + flag 1 packet.schema.spread + flag 2 packet.schema.autoFlatten +
    flag 4 packet.schema.isObject + flag 8 packet.enabled)

/-- The slot count of an object; a single slot is not counted. -/
def writeCount (schema : Schema) : Except EncodeFault Bytes :=
  if schema.isObject then Varint.encode schema.slots.length else .ok []

/-- The bounds of a slot. -/
def writeBounds (slot : Slot) : Except EncodeFault Bytes := do
  return (← Varint.encode slot.min.toNat) ++ (← Varint.encode slot.max.toNat)

/-- The record of a packet. -/
def write (packet : Packet) : Except EncodeFault Bytes := do
  let schema := packet.schema
  let count ← writeCount schema
  let bounds ← schema.slots.mapM writeBounds
  let kinds ← schema.slots.mapM fun slot => slot.kind.write
  let interval ← Varint.encode schema.batchInterval.toNat
  let maxBatch ← Varint.encode schema.maxBatch.toNat
  let rateLimit ← Varint.encode schema.rateLimit.toNat
  return packet.flags :: count ++ bounds.flatten ++ kinds.flatten ++ interval ++ maxBatch ++
    rateLimit ++ UInt8.ofNat packet.tag.utf8ByteSize :: Utf8.encode packet.tag

/-- How many slots follow. -/
def countParser (isObject : Bool) : Parser Nat :=
  if isObject then UInt32.toNat <$> Parser.word else pure 1

/-- Bounds of `count` slots. -/
def boundsParser : Nat → Parser (List (UInt32 × UInt32))
  | 0 => return []
  | count + 1 => do
    let min ← Parser.word
    let max ← Parser.word
    return (min, max) :: (← boundsParser count)

/-- Kinds of `count` slots. -/
def kindsParser : Nat → Parser (List PayloadKind)
  | 0 => return []
  | count + 1 => do
    let kind ← PayloadKind.parser
    return kind :: (← kindsParser count)

/-- The schema with these slots. -/
def schemaOf (isObject : Bool) (kinds : List PayloadKind) (bounds : List (UInt32 × UInt32)) :
    Result Schema :=
  match isObject, kinds, bounds with
  | false, kind :: _, (min, max) :: _ => Schema.single kind min max
  | false, _, _ => .error .notProtocol
  | true, _, _ => Schema.object kinds (bounds.map Prod.fst) (bounds.map Prod.snd)

/-- The value of a step that must not fail in a record. -/
def required {α : Type} : Result α → Parser α
  | .ok a => pure a
  | .error _ => Parser.fail .notProtocol

/-- Reads a record. Flags, slot counts, bounds and tags that no packet has are refused. -/
def parser : Parser Packet := do
  let flags := (← Parser.octet).toNat
  if flags < 128 ∨ 128 + 16 ≤ flags then
    Parser.fail .notProtocol
  let isObject := flags / 4 % 2 == 1
  let count ← countParser isObject
  if count = 0 ∨ Schema.maxSlots < count then
    Parser.fail .notProtocol
  let bounds ← boundsParser count
  let kinds ← kindsParser count
  let interval ← Parser.word
  let maxBatch ← Parser.word
  let rateLimit ← Parser.word
  let tag ← Parser.shortText
  let schema ← required (schemaOf isObject kinds bounds)
  let schema ← required (schema.withAutoFlatten (flags / 2 % 2 == 1))
  let schema := ((schema.withSpread (flags % 2 == 1)).withBatching interval maxBatch).withRateLimit
    rateLimit
  let packet ← required (make tag schema)
  return packet.setEnabled (flags / 8 % 2 == 1)

end PacketProtocol.Packet
