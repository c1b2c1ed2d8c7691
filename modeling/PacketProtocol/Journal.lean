import PacketProtocol.Error
import PacketProtocol.Metrics
/-!
# Journals

What a connection has told the outside apart from its transport and timers: the callbacks it ran and
what it counted, oldest first. Callbacks are known by the names they were registered under.
-/

namespace PacketProtocol

/-- One entry of a journal. -/
inductive Entry where
  /-- A listener ran. -/
  | heard (listener : String) (args : List Value)
  /-- A listener asked for values to be sent. -/
  | posted (tag : String) (values : List Value)
  /-- A ready callback ran. -/
  | ready (callback : String)
  /-- A close callback ran. -/
  | closed (callback : String) (code : CloseCode) (reason : String)
  /-- An error went to the error callback, or nowhere if there is none. -/
  | reported (callback : Option String) (error : ProtocolError)
  /-- Something was counted. -/
  | counted (count : Count)
deriving Repr, Inhabited

/-- Entries, oldest first. -/
abbrev Journal := List Entry

namespace Journal

/-- What was counted, in order. -/
def counts (journal : Journal) : List Count :=
  journal.filterMap fun
    | .counted count => some count
    | _ => none

/-- Names of the listeners that ran, with their arguments. -/
def heard (journal : Journal) : List (String × List Value) :=
  journal.filterMap fun
    | .heard listener args => some (listener, args)
    | _ => none

/-- What listeners asked to send, in order. -/
def posts (journal : Journal) : List (String × List Value) :=
  journal.filterMap fun
    | .posted tag values => some (tag, values)
    | _ => none

end Journal

end PacketProtocol
