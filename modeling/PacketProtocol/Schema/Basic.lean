import PacketProtocol.Payload.Decode
/-!
# Schemas

The declared shape of a packet: one slot, or an object of several, each slot a payload kind with
bounds on its count, and the flags that say how the packet is delivered. `Schema.single` and
`Schema.object` make the schemas whose bounds make sense.
-/

namespace PacketProtocol

/-- A payload kind with bounds on its count. -/
structure Slot where
  kind : PayloadKind
  min : UInt32
  max : UInt32
deriving Repr, Inhabited

namespace Slot

def same (a b : Slot) : Bool := a.kind.same b.kind && a.min == b.min && a.max == b.max

/-- Counted units of some values in this slot. -/
def count (slot : Slot) (values : List Value) : Nat := slot.kind.count values

/-- Whether a count lies within the bounds. -/
def admits (slot : Slot) (count : Nat) : Bool := slot.min.toNat ≤ count && count ≤ slot.max.toNat

/-- Fails with the bounds if a packet has a count outside them. -/
def checkArity (slot : Slot) (tag : String) (count : Nat) : Result Unit :=
  if slot.admits count then .ok () else .error (.arity tag slot.min slot.max count)

end Slot

/-- One slot, or several. -/
inductive Shape where
  | single (slot : Slot)
  | object (slots : List Slot)
deriving Repr, Inhabited

namespace Shape

def slots : Shape → List Slot
  | single slot => [slot]
  | object slots => slots

def isObject : Shape → Bool
  | single _ => false
  | object _ => true

def same : Shape → Shape → Bool
  | single a, single b => a.same b
  | object as, object bs => as.length == bs.length && (List.zipWith Slot.same as bs).all id
  | _, _ => false

end Shape

/-- Shape and delivery of one packet. -/
structure Schema where
  shape : Shape
  /-- Values are passed to listeners one by one, not as a list. -/
  spread : Bool := true
  /-- Rows are turned into columns before encoding. -/
  autoFlatten : Bool := false
  /-- Milliseconds between batch flushes; zero for no batching. -/
  batchInterval : UInt32 := 0
  /-- Most payloads of a batch; zero for no limit. -/
  maxBatch : UInt32 := 0
  /-- Most packets in a rate window; zero for no limit. -/
  rateLimit : UInt32 := 0
deriving Repr, Inhabited

namespace Schema

/-- Most octets of an object's section: its length is one octet. -/
def maxSection : Nat := 255

/-- Most slots of an object. -/
def maxSlots : Nat := 255

/-- A schema of one slot. The empty payload has no values whatever the bounds asked for. -/
def single (kind : PayloadKind) (min max : UInt32) : Result Schema :=
  let (min, max) := if kind.isNone then (0, 0) else (min, max)
  if max < min then .error (.invalidSchema (.arity min max))
  else .ok { shape := .single ⟨kind, min, max⟩ }

/-- Slots from kinds and bounds, in order. -/
def makeSlots : List PayloadKind → List UInt32 → List UInt32 → Result (List Slot)
  | kind :: kinds, min :: mins, max :: maxs =>
    if max < min then .error (.invalidSchema (.slotArity kind.name min max))
    else return ⟨kind, min, max⟩ :: (← makeSlots kinds mins maxs)
  | _, _, _ => .ok []

/-- A schema of several slots; the three lists say the kind and bounds of each. -/
def object (kinds : List PayloadKind) (mins maxs : List UInt32) : Result Schema :=
  if kinds.isEmpty ∨ kinds.length ≠ mins.length ∨ kinds.length ≠ maxs.length then
    .error (.invalidSchema (.slotCounts kinds.length mins.length maxs.length))
  else if maxSlots < kinds.length then .error (.invalidSchema (.tooManySlots kinds.length))
  else return { shape := .object (← makeSlots kinds mins maxs) }

def withSpread (schema : Schema) (spread : Bool) : Schema := { schema with spread }

/-- Sets whether rows are turned into columns; only an object has columns. -/
def withAutoFlatten (schema : Schema) (autoFlatten : Bool) : Result Schema :=
  if autoFlatten && !schema.shape.isObject then .error (.invalidSchema .flattenWithoutSlots)
  else .ok { schema with autoFlatten }

def withBatching (schema : Schema) (interval maxBatch : UInt32) : Schema :=
  { schema with batchInterval := interval, maxBatch }

def withRateLimit (schema : Schema) (limit : UInt32) : Schema := { schema with rateLimit := limit }

def slots (schema : Schema) : List Slot := schema.shape.slots

def isObject (schema : Schema) : Bool := schema.shape.isObject

def isBatched (schema : Schema) : Bool := 0 < schema.batchInterval

/-- Equality of schemas. -/
def same (a b : Schema) : Bool :=
  a.shape.same b.shape && a.spread == b.spread && a.autoFlatten == b.autoFlatten &&
    a.batchInterval == b.batchInterval && a.maxBatch == b.maxBatch && a.rateLimit == b.rateLimit

end Schema

end PacketProtocol
