import PacketProtocol.Parser
/-!
# Cursors

A cursor is a place in a string of octets. `read` runs a parser there; the cursor stays where it is
when the parser fails.
-/

namespace PacketProtocol

/-- A place in octets: how many are behind it and those ahead. -/
structure Cursor where
  position : Nat
  ahead : Bytes
deriving DecidableEq, Repr

namespace Cursor

/-- The start of some octets. -/
def start (bytes : Bytes) : Cursor := ⟨0, bytes⟩

/-- How many octets are ahead. -/
def remaining (c : Cursor) : Nat := c.ahead.length

def isAtEnd (c : Cursor) : Bool := c.ahead.isEmpty

/-- The next octet, left where it is. -/
def peek (c : Cursor) : Option UInt8 := c.ahead.head?

/-- Reads with a parser and moves past what it read. -/
def read {α : Type} (c : Cursor) (parser : Parser α) : Except DecodeFault (α × Cursor) :=
  match parser c.ahead with
  | .error fault => .error fault
  | .ok (value, rest) => .ok (value, ⟨c.position + (c.ahead.length - rest.length), rest⟩)

end Cursor

end PacketProtocol
