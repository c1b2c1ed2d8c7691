import PacketProtocol.Schema.Codec
/-!
# Packets

A packet is a named message kind: a tag, a schema, an optional check of decoded values, and whether
it may be used at present.
-/

namespace PacketProtocol

/-- The octet between the two registries of a handshake; no tag contains it. -/
def delimiter : UInt8 := 0

/-- One message kind. -/
structure Packet where
  tag : String
  schema : Schema
  /-- Refuses decoded values that the schema alone cannot. -/
  validator : Option (List Value → Bool) := none
  enabled : Bool := true
deriving Inhabited

namespace Packet

/-- Most octets of a tag. -/
def maxTag : Nat := 255

/-- Accepts tags of 1 to 255 octets, none of them the delimiter. -/
def validateTag (tag : String) : Result Unit :=
  let octets := Utf8.encode tag
  if octets.isEmpty ∨ maxTag < octets.length ∨ octets.contains delimiter then
    .error (.invalidTag tag)
  else .ok ()

/-- An enabled packet without a validator. -/
def make (tag : String) (schema : Schema) : Result Packet := do
  validateTag tag
  return { tag, schema }

def withValidator (packet : Packet) (validator : List Value → Bool) : Packet :=
  { packet with validator := some validator }

def setEnabled (packet : Packet) (enabled : Bool) : Packet := { packet with enabled }

/-- Equality of definitions: tag, schema and enabled bit. Validators are not compared. -/
def same (a b : Packet) : Bool :=
  a.tag == b.tag && a.schema.same b.schema && a.enabled == b.enabled

/-- The payload of some values. -/
def encode (packet : Packet) (values : List Value) : Result Bytes :=
  packet.schema.encode packet.tag values

/-- The values of a received payload: it must fit the schema, decode, and pass the validator. -/
def decode (packet : Packet) (bytes : Bytes) : Result (List Value) :=
  if !packet.schema.fits bytes then .error (.malformedPayload packet.tag (.decode .capacity))
  else
    match packet.schema.decode bytes with
    | .error fault => .error (.malformedPayload packet.tag (.decode fault))
    | .ok values =>
      if packet.validator.all fun accepts => accepts values then .ok values
      else .error (.malformedPayload packet.tag .rejected)

end Packet

end PacketProtocol
