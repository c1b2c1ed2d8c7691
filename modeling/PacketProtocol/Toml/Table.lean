/-!
# TOML tables

The values of a TOML document and how its lines build them up. A table remembers how it came to be:
one written inline is complete, one with a header of its own is not given another, and dotted keys go
on only with tables that dotted keys began.
-/

namespace PacketProtocol.Toml

/-- How a table came to be. -/
inductive Origin where
  /-- Written inline. -/
  | inline
  /-- Begun by a header. -/
  | header
  /-- Named only on the way to another table's header. -/
  | passed
  /-- Begun by a dotted key. -/
  | dotted
deriving DecidableEq, Repr, Inhabited

inductive Value where
  | string (text : String)
  | integer (n : Int)
  | boolean (b : Bool)
  | table (origin : Origin) (entries : List (String × Value))
deriving Inhabited

/-- The entries of a table, in the order they were written. -/
abbrev Entries := List (String × Value)

namespace Entries

/-- Puts a value in the place of the one with its key. -/
def replace (entries : Entries) (key : String) (value : Value) : Entries :=
  entries.map fun entry => if entry.1 == key then (key, value) else entry

/-- Begins the table of a header, unless it is there already. -/
def openTable (entries : Entries) : List String → Option Entries
  | [] => none
  | [key] =>
    match entries.lookup key with
    | none => some (entries ++ [(key, .table .header [])])
    | some (.table .passed inner) => some (entries.replace key (.table .header inner))
    | some _ => none
  | key :: path =>
    match entries.lookup key with
    | none => do return entries ++ [(key, .table .passed (← openTable [] path))]
    | some (.table .inline _) => none
    | some (.table origin inner) => do
      return entries.replace key (.table origin (← openTable inner path))
    | some _ => none

/-- Gives a value to a key, dotted or not, that has none yet. -/
def assign (value : Value) (entries : Entries) : List String → Option Entries
  | [] => none
  | [key] => if (entries.lookup key).isSome then none else some (entries ++ [(key, value)])
  | key :: path =>
    match entries.lookup key with
    | none => do return entries ++ [(key, .table .dotted (← assign value [] path))]
    | some (.table origin inner) =>
      if origin = .dotted ∨ origin = .passed ∧ path.length ≠ 1 then do
        return entries.replace key (.table origin (← assign value inner path))
      else none
    | some _ => none

/-- Changes the table that a header opened. -/
def within (change : Entries → Option Entries) (entries : Entries) : List String → Option Entries
  | [] => change entries
  | key :: path =>
    match entries.lookup key with
    | some (.table origin inner) => do
      return entries.replace key (.table origin (← within change inner path))
    | _ => none

end Entries

end PacketProtocol.Toml
