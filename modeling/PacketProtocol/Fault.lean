import PacketProtocol.Value
/-!
# Faults

What can be wrong with octets that are read (`DecodeFault`), with values that are written
(`EncodeFault`), with a declared shape (`SchemaFault`) and with a batch (`BatchFault`). Each has one
wording, given by `message`. The case `other` is for faults that an application words itself.
-/

namespace PacketProtocol

/-- A fault found while reading octets. -/
inductive DecodeFault where
  | unexpectedEnd
  | varintTooLong
  | varintRange
  | sectorOverflow
  | sectorMixedSign
  | invalidUtf8
  | trailingBytes
  | capacity
  | enumIndex
  | sectionLength
  | raggedColumns
  | notProtocol
  | handshakeTruncated
  | other (text : String)
deriving DecidableEq, Repr, Inhabited

def DecodeFault.message : DecodeFault → String
  | unexpectedEnd => "Unexpected end of payload"
  | varintTooLong => "Varint exceeds maximum unit count"
  | varintRange => "Value outside varint range"
  | sectorOverflow => "Sectorized integer overflows 64 bits"
  | sectorMixedSign => "Sectorized integer mixes sign regions"
  | invalidUtf8 => "Invalid or unterminated UTF-8 sequence"
  | trailingBytes => "Trailing bytes after payload"
  | capacity => "Payload does not fit the declared capacity"
  | enumIndex => "Enum index out of range"
  | sectionLength => "Section length exceeds payload"
  | raggedColumns => "Flattened columns differ in length"
  | notProtocol => "Peer does not speak this protocol"
  | handshakeTruncated => "Handshake message is truncated"
  | other text => text

/-- A fault found while writing values. -/
inductive EncodeFault where
  | varintRange (n bound : Nat)
  | signedVarintRange (n : Int) (bound : Nat)
  | sectorWidth (n : Int) (needed width : Nat)
  | unexpectedValues (count : Nat)
  | notOneString
  | fixedIntRange (n : Int) (bound : Nat)
  | mismatch (payload kind : String)
  | notAMember (value : Value) (enum : String)
  | notFinite (x : Binary64)
  | decimalTooLarge (x : Binary64)
  | sectionTooLong (packet payload : String) (length bound : Nat)
  | listInEnum (enum : String)
  | other (text : String)
deriving Repr, Inhabited

def EncodeFault.message : EncodeFault → String
  | varintRange n bound => s!"Value outside varint range ({n} >= {bound})"
  | signedVarintRange n bound => s!"Value outside varint range (|{n}| >= {bound})"
  | sectorWidth n needed width => s!"{n} needs {needed} sectors, slot holds {width}"
  | unexpectedValues count => s!"packet without payload got {count} values"
  | notOneString => "raw payload takes one string"
  | fixedIntRange n bound => s!"{n} exceeds fixed int range ±{bound}"
  | mismatch payload kind => s!"{payload} payload cannot hold a {kind}"
  | notAMember value enum => s!"{value.text} is not a member of enum '{enum}'"
  | notFinite x => s!"{x.text} is not a finite decimal"
  | decimalTooLarge x => s!"{x.text} is too large for a decimal"
  | sectionTooLong packet payload length bound =>
    s!"'{packet}' {payload} section is {length} bytes (max {bound})"
  | listInEnum enum => s!"enum '{enum}' holds a list"
  | other text => text

/-- A fault in a declared shape. -/
inductive SchemaFault where
  | arity (min max : UInt32)
  | slotArity (payload : String) (min max : UInt32)
  | slotCounts (types mins maxs : Nat)
  | tooManySlots (count : Nat)
  | flattenWithoutSlots
  | notRectangular
  | enumSize (enum : String) (bound count : Nat)
  | enumHoldsList (enum : String) (value : Value)
  | other (text : String)
deriving Repr, Inhabited

def SchemaFault.message : SchemaFault → String
  | arity min max => s!"min arity {min} exceeds max arity {max}"
  | slotArity payload min max => s!"slot {payload} min arity {min} exceeds max arity {max}"
  | slotCounts types mins maxs =>
    s!"object schema has {types} types, {mins} min and {maxs} max arities"
  | tooManySlots count => s!"object schema has {count} slots"
  | flattenWithoutSlots => "auto flatten requires an object schema"
  | notRectangular => "flattened data must be rectangular"
  | enumSize enum bound count => s!"enum '{enum}' must have 1..={bound} values, got {count}"
  | enumHoldsList enum value => s!"enum '{enum}' value {value.text} is not a scalar"
  | other text => text

/-- A fault in a received payload of a known packet. -/
inductive PayloadFault where
  | decode (fault : DecodeFault)
  | rejected
  | other (text : String)
deriving DecidableEq, Repr, Inhabited

def PayloadFault.message : PayloadFault → String
  | decode fault => fault.message
  | rejected => "Validator rejected payload"
  | other text => text

/-- A fault in the framing of a batch. -/
inductive BatchFault where
  | empty
  | tooMany (bound : UInt32)
  | badLength (fault : DecodeFault)
  | overrun (length offset : Nat)
  | other (text : String)
deriving DecidableEq, Repr, Inhabited

def BatchFault.message : BatchFault → String
  | empty => "empty batch"
  | tooMany bound => s!"more than {bound} fragments"
  | badLength fault => s!"bad fragment length: Decode error: {fault.message}"
  | overrun length offset => s!"fragment of {length} bytes overruns batch at offset {offset}"
  | other text => text

/-- A fault in the settings or in the way they are stored. -/
inductive ConfigFault where
  | cannotOpen
  | cannotRead
  | cannotParse
  | cannotSerialize
  | invalid (problems : List String)
  | other (text : String)
deriving DecidableEq, Repr, Inhabited

def ConfigFault.message : ConfigFault → String
  | cannotOpen => "Failed to open config file"
  | cannotRead => "Failed to read config file"
  | cannotParse => "Failed to parse TOML"
  | cannotSerialize => "Failed to serialize config"
  | invalid problems =>
    "Configuration validation failed:\n  - " ++ "\n  - ".intercalate problems
  | other text => text

end PacketProtocol
