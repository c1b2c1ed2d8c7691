import PacketProtocol.Text.Utf8
import PacketProtocol.ZigZag
/-!
# Parsers

A parser takes octets from the front of its input: it gives what it read and the octets after it,
or a fault. `Parser.many` reads entries to the end of the input.
-/

namespace PacketProtocol

open scoped Numerals

/-- A reader of octets that may fail. -/
abbrev Parser := StateT Bytes (Except DecodeFault)

namespace Parser

/-- Fails whatever the input. -/
def fail {α : Type} (fault : DecodeFault) : Parser α := fun _ => .error fault

/-- One octet. -/
def octet : Parser UInt8
  | [] => .error .unexpectedEnd
  | octet :: rest => .ok (octet, rest)

/-- Exactly `count` octets. -/
def take (count : Nat) : Parser Bytes := fun bytes =>
  if count ≤ bytes.length then .ok (bytes.take count, bytes.drop count) else .error .unexpectedEnd

/-- A varint. -/
def varint : Parser Nat := Varint.decode

/-- A signed varint. -/
def signedVarint : Parser Int := do return ZigZag.unfold (← varint)

/-- A varint that must fit 32 bits. -/
def word : Parser UInt32 := do
  let n ← varint
  if n < 2 ^ (32 : Nat) then return UInt32.ofNat n else fail .varintRange

/-- A text of `count` octets. -/
def utf8 (count : Nat) : Parser String := do
  match Utf8.decode (← take count) with
  | some text => return text
  | none => fail .invalidUtf8

/-- A text behind its length as a varint. -/
def text : Parser String := do utf8 (← varint)

/-- A text behind its length in one octet. -/
def shortText : Parser String := do utf8 (← octet).toNat

/-- All that is left. -/
def rest : Parser Bytes := fun bytes => .ok (bytes, [])

/-- Succeeds at the end of the input only. -/
def finish : Parser Unit
  | [] => .ok ((), [])
  | _ :: _ => .error .trailingBytes

/-- Entries to the end of the input. An entry that takes no octet would never end, so it is refused. -/
def many {α : Type} (entry : Parser α) (bytes : Bytes) : Except DecodeFault (List α) :=
  if bytes.isEmpty then .ok []
  else
    match entry bytes with
    | .error fault => .error fault
    | .ok (value, rest) =>
      if rest.length < bytes.length then
        match many entry rest with
        | .error fault => .error fault
        | .ok values => .ok (value :: values)
      else .error .unexpectedEnd
termination_by bytes.length

end Parser

end PacketProtocol
