import PacketProtocol.EnumPackage
/-!
# Payload kinds

The closed set of ways to put a list of values into octets, and the written form of a kind.
-/

namespace PacketProtocol

open scoped Numerals

/-- How a list of values is encoded. -/
inductive PayloadKind where
  /-- No values and no octets. -/
  | none
  /-- One text, sent as it is. -/
  | raw
  /-- Texts behind their lengths. -/
  | strings
  /-- Small integers, two sectors each. -/
  | intsFixed
  /-- Integers, all in as many sectors as the largest needs. -/
  | intsDynamic
  /-- Decimal numbers as whole part and fraction. -/
  | decimals
  /-- Packed flags. -/
  | booleans
  /-- Indices into an enum package. -/
  | enum (package : EnumPackage)
  /-- Single-precision numbers. -/
  | floats
deriving Repr, Inhabited

namespace PayloadKind

/-- The octet that stands for a kind in a record. -/
def code : PayloadKind → UInt8
  | none => 0
  | raw => 1
  | strings => 2
  | intsFixed => 3
  | intsDynamic => 4
  | decimals => 5
  | booleans => 6
  | enum _ => 7
  | floats => 8

def name : PayloadKind → String
  | none => "none"
  | raw => "raw"
  | strings => "strings"
  | intsFixed => "ints_fixed"
  | intsDynamic => "ints_dynamic"
  | decimals => "decimals"
  | booleans => "booleans"
  | enum _ => "enum"
  | floats => "floats"

/-- The kind with a name, if it needs no more than the name. -/
def ofName? (name : String) : Option PayloadKind :=
  [none, raw, strings, intsFixed, intsDynamic, decimals, booleans, floats].find?
    fun kind => kind.name == name

/-- Equality of kinds. -/
def same : PayloadKind → PayloadKind → Bool
  | enum a, enum b => a.same b
  | a, b => a.code == b.code

def isNone : PayloadKind → Bool
  | none => true
  | _ => false

def isFlags : PayloadKind → Bool
  | booleans => true
  | _ => false

/-- What arity bounds apply to: the characters of raw text, otherwise the number of values. -/
def count (kind : PayloadKind) (values : List Value) : Nat :=
  match kind with
  | raw => (values.map fun value => (value.string?.map String.length).getD 0).sum
  | _ => values.length

/-- The kind's octet, with the package of an enum behind it. -/
def write : PayloadKind → Except EncodeFault Bytes
  | enum package => return 7 :: (← package.write)
  | kind => .ok [kind.code]

def parser : Parser PayloadKind := do
  match ← Parser.octet with
  | 0 => return none
  | 1 => return raw
  | 2 => return strings
  | 3 => return intsFixed
  | 4 => return intsDynamic
  | 5 => return decimals
  | 6 => return booleans
  | 7 => return enum (← EnumPackage.parser)
  | 8 => return floats
  | _ => Parser.fail .notProtocol

end PayloadKind

end PacketProtocol
