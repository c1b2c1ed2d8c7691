import PacketProtocol.Binary.Shortest
import PacketProtocol.Text.Quoted
/-!
# Values

What packets carry: dynamic values with a kind, printed by `Value.text`. `same` is equality as
numbers compare, so a NaN is the same as nothing; `agrees` also lets an integer and a double agree,
compared as doubles.
-/

namespace PacketProtocol

/-- A value to be encoded, or decoded from a payload. -/
inductive Value where
  | undefined
  | null
  | bool (flag : Bool)
  | int (n : Int64)
  | number (x : Binary64)
  | string (text : String)
  | list (items : List Value)
deriving Repr, Inhabited

namespace Value

/-- The word for a value's kind in messages. -/
def kind : Value → String
  | undefined => "undefined"
  | null => "null"
  | bool _ => "bool"
  | int _ => "int"
  | number _ => "number"
  | string _ => "string"
  | list _ => "list"

def string? : Value → Option String
  | string text => some text
  | _ => none

def bool? : Value → Option Bool
  | bool flag => some flag
  | _ => none

def list? : Value → Option (List Value)
  | list items => some items
  | _ => none

/-- The integer a value holds: an integer, or a double equal to one below `2 ^ 53` in magnitude. -/
def int? : Value → Option Int64
  | int n => some n
  | number x => x.integer?.map Int64.ofInt
  | _ => none

/-- The double a value holds, or the one nearest to its integer. -/
def number? : Value → Option Binary64
  | number x => some x
  | int n => some (.ofInt n.toInt)
  | _ => none

/-- Whether the value holds others. -/
def isList : Value → Bool
  | list _ => true
  | _ => false

mutual

/-- Equality of values: kind and content, doubles as numbers. -/
def same : Value → Value → Bool
  | undefined, undefined => true
  | null, null => true
  | bool a, bool b => a == b
  | int a, int b => a == b
  | number a, number b => a.equal b
  | string a, string b => a == b
  | list as, list bs => sameAll as bs
  | _, _ => false

/-- Equality of lists of values, entry by entry. -/
def sameAll : List Value → List Value → Bool
  | [], [] => true
  | a :: as, b :: bs => same a b && sameAll as bs
  | _, _ => false

end

/-- Whether a member of an enum package is what a sender means by a value: any two numbers agree if
they are equal as doubles. -/
def agrees (member value : Value) : Bool :=
  match member, value with
  | int _, int _ | int _, number _ | number _, int _ | number _, number _ =>
    match member.number?, value.number? with
    | some a, some b => a.equal b
    | _, _ => false
  | _, _ => member.same value

mutual

/-- A value as text. -/
def text : Value → String
  | undefined => "undefined"
  | null => "null"
  | bool flag => if flag then "true" else "false"
  | int n => toString n.toInt
  | number x => x.text
  | string s => Text.quoted s
  | list [] => "[]"
  | list (first :: rest) => "[" ++ text first ++ textRest rest ++ "]"

/-- The entries of a list after its first, each behind a comma. -/
def textRest : List Value → String
  | [] => ""
  | value :: rest => ", " ++ text value ++ textRest rest

end

end Value

end PacketProtocol
