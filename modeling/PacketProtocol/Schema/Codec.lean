import PacketProtocol.Schema.Basic
import PacketProtocol.Schema.Columns
/-!
# Encoding by schema

A single slot is encoded as its payload. An object is a sequence of sections, one per slot, each
behind its length in one octet. Packed flags do not tell their number, so an auto-flattened object
of flags alone has the number of rows in front; otherwise the other columns tell it.
-/

namespace PacketProtocol.Schema

/-- The values of a slot: a list's entries, or the one scalar given. -/
def groupOf : Value → List Value
  | .list items => items
  | scalar => [scalar]

def allFlags (slots : List Slot) : Bool := slots.all fun slot => slot.kind.isFlags

/-- Whether the number of rows stands in front of the sections. -/
def leadsWithRows (schema : Schema) : Bool := schema.autoFlatten && allFlags schema.slots

/-! ## Encoding -/

/-- The values of each slot, from what a sender supplies. -/
def groups (schema : Schema) (slots : List Slot) (values : List Value) :
    Result (List (List Value)) :=
  if schema.autoFlatten then do
    let columns ← Columns.flatten (values.map groupOf)
    return if columns.isEmpty then slots.map fun _ => [] else columns
  else .ok (values.map groupOf)

/-- One slot's values behind the length of their octets. -/
def encodeSection (tag : String) (slot : Slot) (values : List Value) : Except EncodeFault Bytes := do
  let payload ← slot.kind.encode values
  if maxSection < payload.length then
    throw (.sectionTooLong tag slot.kind.name payload.length maxSection)
  return UInt8.ofNat payload.length :: payload

/-- All sections in slot order. -/
def encodeSections (tag : String) : List Slot → List (List Value) → Except EncodeFault Bytes
  | slot :: slots, values :: groups => do
    let first ← encodeSection tag slot values
    return first ++ (← encodeSections tag slots groups)
  | _, _ => .ok []

/-- Checks the count of every slot in order. -/
def checkArities (tag : String) : List Slot → List (List Value) → Result Unit
  | slot :: slots, values :: groups => do
    slot.checkArity tag (slot.count values)
    checkArities tag slots groups
  | _, _ => .ok ()

/-- The payload of some values. Bounds are checked before anything is encoded. -/
def encode (schema : Schema) (tag : String) (values : List Value) : Result Bytes :=
  match schema.shape with
  | .single slot => do
    slot.checkArity tag (slot.count values)
    (slot.kind.encode values).mapError .encode
  | .object slots => do
    let groups ← schema.groups slots values
    if groups.length ≠ slots.length then
      let expected := UInt32.ofNat slots.length
      throw (.arity tag expected expected groups.length)
    checkArities tag slots groups
    let rows ←
      if schema.leadsWithRows then (Varint.encode values.length).mapError .encode else .ok []
    return rows ++ (← (encodeSections tag slots groups).mapError .encode)

/-! ## Decoding -/

/-- The octets of one section. -/
def section? : Parser Bytes := do
  let length ← Parser.octet
  let bytes ← get
  match Parser.take length.toNat bytes with
  | .ok (payload, rest) => do set rest; return payload
  | .error _ => Parser.fail .sectionLength

/-- The values of every slot, section by section. -/
def columnsParser : List Slot → Parser (List (List Value))
  | [] => return []
  | slot :: slots => do
    let column ← (slot.kind.decode (← section?) slot.max.toNat : Except DecodeFault (List Value))
    return column :: (← columnsParser slots)

/-- The rows of columns: the length of the first that is not of flags. -/
def rowCount : List Slot → List (List Value) → Nat
  | slot :: slots, column :: columns =>
    if slot.kind.isFlags then rowCount slots columns else column.length
  | _, _ => 0

/-- Cuts the columns of flags to the number of rows. -/
def cutFlags (rows : Nat) : List Slot → List (List Value) → Except DecodeFault (List (List Value))
  | slot :: slots, column :: columns =>
    if slot.kind.isFlags then
      if column.length < rows then .error .raggedColumns
      else return column.take rows :: (← cutFlags rows slots columns)
    else return column :: (← cutFlags rows slots columns)
  | _, _ => .ok []

/-- Whether every slot's count reaches its lower bound. -/
def meetMinimums (slots : List Slot) (columns : List (List Value)) : Bool :=
  (List.zipWith (fun slot column => decide (slot.min.toNat ≤ slot.count column)) slots columns).all id

/-- The value sequence of a payload: the values of a single slot; of an object one list per slot, or
per row if it was flattened. -/
def decode (schema : Schema) (bytes : Bytes) : Except DecodeFault (List Value) :=
  match schema.shape with
  | .single slot => do
    let values ← slot.kind.decode bytes slot.max.toNat
    if slot.count values < slot.min.toNat then
      throw .capacity
    return values
  | .object slots => do
    let (rows, bytes) ←
      if schema.leadsWithRows then do
        let (rows, rest) ← Varint.decode bytes
        pure (some rows, rest)
      else pure (none, bytes)
    let (columns, rest) ← columnsParser slots bytes
    if !rest.isEmpty then
      throw .trailingBytes
    let columns ←
      if schema.autoFlatten then cutFlags (rows.getD (rowCount slots columns)) slots columns
      else pure columns
    if !meetMinimums slots columns then
      throw .capacity
    if schema.autoFlatten then
      match Columns.unflatten columns with
      | .ok rows => return rows.map .list
      | .error _ => throw .raggedColumns
    else return columns.map .list

/-! ## A cheap look -/

/-- Whether octets are one section per slot, each of a shape its slot could hold. -/
def sectionsFit : List Slot → Bytes → Bool
  | [], bytes => bytes.isEmpty
  | _ :: _, [] => false
  | slot :: slots, length :: rest =>
    length.toNat ≤ rest.length && slot.kind.fits (rest.take length.toNat) slot.max.toNat &&
      sectionsFit slots (rest.drop length.toNat)

/-- Whether octets have the shape of a payload of this schema. -/
def fits (schema : Schema) (bytes : Bytes) : Bool :=
  match schema.shape with
  | .single slot => slot.kind.fits bytes slot.max.toNat
  | .object slots =>
    if schema.leadsWithRows then
      match Varint.decode bytes with
      | .ok (_, rest) => sectionsFit slots rest
      | .error _ => false
    else sectionsFit slots bytes

/-- What listeners are called with. Empty and raw payloads are passed as they are. -/
def arguments (schema : Schema) (decoded : List Value) : List Value :=
  match schema.shape with
  | .single ⟨.none, _, _⟩ | .single ⟨.raw, _, _⟩ => decoded
  | _ => if schema.spread then decoded else [.list decoded]

end PacketProtocol.Schema
