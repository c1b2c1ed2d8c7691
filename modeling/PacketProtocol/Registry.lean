import PacketProtocol.Packet.Record
/-!
# Registries

The packets of one direction of traffic, numbered 1, 2, 3, … in the order they were registered; the
number is the packet's key on the wire, and key 0 is never given out. A registry is written as the
records of its packets, one after the other.
-/

namespace PacketProtocol

/-- Packets in key order; the first has key 1. -/
structure Registry where
  packets : List Packet
deriving Inhabited

namespace Registry

/-- Most packets of a registry: a key is one octet and 0 is not used. -/
def maxPackets : Nat := 255

def empty : Registry := ⟨[]⟩

def size (registry : Registry) : Nat := registry.packets.length

/-- The key under which a tag is registered. -/
def key? (registry : Registry) (tag : String) : Option UInt8 :=
  (registry.packets.findIdx? fun packet => packet.tag == tag).map fun index => UInt8.ofNat (index + 1)

def contains (registry : Registry) (tag : String) : Bool := (registry.key? tag).isSome

/-- Adds a packet under the next key. -/
def insert (registry : Registry) (packet : Packet) : Result Registry :=
  if registry.contains packet.tag then .error (.duplicateTag packet.tag)
  else if maxPackets ≤ registry.size then .error (.registryFull maxPackets)
  else .ok ⟨registry.packets ++ [packet]⟩

/-- A registry of some packets, in order. -/
def register (packets : List Packet) : Result Registry := packets.foldlM insert empty

def keyOf (registry : Registry) (tag : String) : Result UInt8 :=
  match registry.key? tag with
  | some key => .ok key
  | none => .error (.unknownTag tag)

/-- The packet with a key. -/
def byKey (registry : Registry) (key : UInt8) : Result Packet :=
  match (if key = 0 then none else registry.packets[key.toNat - 1]?) with
  | some packet => .ok packet
  | none => .error (.unknownKey key)

def tagOf (registry : Registry) (key : UInt8) : Result String := Packet.tag <$> registry.byKey key

/-- The packet with a tag. -/
def byTag (registry : Registry) (tag : String) : Result Packet := do
  registry.byKey (← registry.keyOf tag)

/-- Keys and packets in key order. -/
def entries (registry : Registry) : List (UInt8 × Packet) :=
  registry.packets.zipIdx.map fun (packet, index) => (UInt8.ofNat (index + 1), packet)

/-- The tags in key order. -/
def tags (registry : Registry) : List String := registry.packets.map Packet.tag

/-- The same definitions under the same keys. -/
def sameLayout (a b : Registry) : Bool :=
  a.size == b.size && (List.zipWith Packet.same a.packets b.packets).all id

/-- Sets the enabled bit of the packet with a tag. -/
def setEnabled (registry : Registry) (tag : String) (enabled : Bool) : Registry :=
  ⟨registry.packets.map fun packet =>
    if packet.tag == tag then packet.setEnabled enabled else packet⟩

/-! ## Written form -/

/-- The records of all packets. -/
def write (registry : Registry) : Except EncodeFault Bytes :=
  return (← registry.packets.mapM Packet.write).flatten

/-- Adds a packet that was read; one that cannot be added is no part of this protocol. -/
def insertRead (registry : Registry) (packet : Packet) : Except DecodeFault Registry :=
  match registry.insert packet with
  | .ok registry => .ok registry
  | .error _ => .error .notProtocol

/-- Reads records to the end of the input. -/
def read (bytes : Bytes) : Except DecodeFault Registry := go (maxPackets + 1) empty bytes
where
  /-- At most `room` more records; no registry has room for as many as are tried. -/
  go : Nat → Registry → Bytes → Except DecodeFault Registry
    | 0, _, _ => .error .notProtocol
    | room + 1, registry, bytes =>
      if bytes.isEmpty then .ok registry
      else do
        let (packet, rest) ← Packet.parser bytes
        go room (← registry.insertRead packet) rest

/-- Reads records up to and with the delimiter behind them. -/
def sectionParser : Parser Registry := go (maxPackets + 1) empty
where
  /-- At most `room` more records; no registry has room for as many as are tried. -/
  go : Nat → Registry → Parser Registry
    | 0, _ => Parser.fail .notProtocol
    | room + 1, registry => fun bytes =>
      match bytes with
      | [] => .error .handshakeTruncated
      | octet :: rest =>
        if octet = delimiter then .ok (registry, rest)
        else do
          let (packet, rest) ← Packet.parser bytes
          go room (← registry.insertRead packet) rest

end Registry

end PacketProtocol
