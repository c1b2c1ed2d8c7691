import PacketProtocol.Error
import PacketProtocol.Parser
/-!
# Enum packages

A closed, ordered set of scalar values under a tag; payloads carry the index of a member.
`EnumPackage.make` admits the packages that have a written form, `write` and `parser` are that form.
-/

namespace PacketProtocol

/-- A tag and the members, in index order. -/
structure EnumPackage where
  tag : String
  members : List Value
deriving Repr, Inhabited

namespace EnumPackage

/-- Most members of a package: an index is one octet. -/
def maxMembers : Nat := 255

/-- A package, if its tag has 1 to 255 octets and it has 1 to 255 members, none of them a list. -/
def make (tag : String) (members : List Value) : Result EnumPackage :=
  if tag.utf8ByteSize = 0 ∨ 255 < tag.utf8ByteSize then .error (.invalidTag tag)
  else if members.isEmpty ∨ maxMembers < members.length then
    .error (.invalidSchema (.enumSize tag maxMembers members.length))
  else
    match members.find? Value.isList with
    | some list => .error (.invalidSchema (.enumHoldsList tag list))
    | none => .ok ⟨tag, members⟩

/-- Index of the first member a value agrees with. -/
def indexOf? (package : EnumPackage) (value : Value) : Option Nat :=
  package.members.findIdx? fun member => member.agrees value

/-- Equality of packages, members as values. -/
def same (a b : EnumPackage) : Bool := a.tag == b.tag && Value.sameAll a.members b.members

/-! ## Written form -/

/-- A member behind the octet that tells its kind. -/
def writeMember (tag : String) : Value → Except EncodeFault Bytes
  | .undefined => .ok [0]
  | .null => .ok [1]
  | .bool false => .ok [2]
  | .bool true => .ok [3]
  | .int n => return 4 :: (← ZigZag.encode n.toInt)
  | .number x => .ok (5 :: x.toBytes)
  | .string text => return 6 :: (← Varint.encode text.utf8ByteSize) ++ Utf8.encode text
  | .list _ => .error (.listInEnum tag)

/-- Tag, member count and members, the tag and the count behind or in one octet. -/
def write (package : EnumPackage) : Except EncodeFault Bytes := do
  let members ← package.members.mapM (writeMember package.tag)
  return UInt8.ofNat package.tag.utf8ByteSize :: Utf8.encode package.tag ++
    UInt8.ofNat package.members.length :: members.flatten

def memberParser : Parser Value := do
  match ← Parser.octet with
  | 0 => return .undefined
  | 1 => return .null
  | 2 => return .bool false
  | 3 => return .bool true
  | 4 => return .int (Int64.ofInt (← Parser.signedVarint))
  | 5 => return .number (Binary64.ofBytes (← Parser.take 8))
  | 6 => return .string (← Parser.text)
  | _ => Parser.fail .notProtocol

/-- Exactly `count` members. -/
def membersParser : Nat → Parser (List Value)
  | 0 => return []
  | count + 1 => do
    let member ← memberParser
    return member :: (← membersParser count)

/-- Reads a written package. One that could not have been made is refused. -/
def parser : Parser EnumPackage := do
  let tag ← Parser.shortText
  let members ← membersParser (← Parser.octet).toNat
  match make tag members with
  | .ok package => return package
  | .error _ => Parser.fail .notProtocol

end EnumPackage

/-- The enum packages of a definition, each tag once, in the order they were defined. -/
structure EnumRegistry where
  packages : List EnumPackage
deriving Repr, Inhabited

namespace EnumRegistry

def empty : EnumRegistry := ⟨[]⟩

def get? (registry : EnumRegistry) (tag : String) : Option EnumPackage :=
  registry.packages.find? fun package => package.tag == tag

/-- Adds a package under a tag that has none yet. -/
def define (registry : EnumRegistry) (tag : String) (members : List Value) :
    Result (EnumPackage × EnumRegistry) :=
  if (registry.get? tag).isSome then .error (.duplicateEnum tag)
  else do
    let package ← EnumPackage.make tag members
    return (package, ⟨registry.packages ++ [package]⟩)

end EnumRegistry

end PacketProtocol
