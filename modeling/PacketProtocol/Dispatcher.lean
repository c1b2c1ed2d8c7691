import PacketProtocol.Journal
import PacketProtocol.Registry
/-!
# Dispatching

The callbacks of one connection. Listeners are kept under tags in the order of their registration;
those registered before the tags are known wait until they are. Running callbacks adds entries to
the connection's journal.
-/

namespace PacketProtocol

/-- What a listener is called with, and what it may remember: names and arguments of the listeners called before the
packet came, oldest first. -/
structure Hearing where
  args : List Value
  earlier : List (String × List Value)

/-- A callback for the packets of a tag. -/
structure Listener where
  name : String
  /-- What it answers when it is called. -/
  respond : Hearing → Result Unit := fun _ => .ok ()
  /-- A tag under which it asks its arguments to be sent on. -/
  forward : Option String := none
deriving Inhabited

/-- Calls a listener: what it answered, and what it did. -/
def Listener.call (listener : Listener) (hearing : Hearing) : Result Unit × Journal :=
  let posts := match listener.forward with
    | some tag => [Entry.posted tag hearing.args]
    | none => []
  (listener.respond hearing, .heard listener.name hearing.args :: posts)

/-- The callbacks of a connection. -/
structure Dispatcher where
  /-- Listeners in the order of registration, with their tags. -/
  listeners : List (String × Listener) := []
  /-- Listeners that wait for the registry. -/
  pending : List (String × Listener) := []
  readyCallbacks : List String := []
  closeCallbacks : List String := []
  errorCallback : Option String := none
deriving Inhabited

namespace Dispatcher

def empty : Dispatcher := {}

/-- Adds a listener for a tag of a known registry. -/
def register (d : Dispatcher) (registry : Registry) (tag : String) (listener : Listener) :
    Result Dispatcher :=
  match registry.keyOf tag with
  | .ok _ => .ok { d with listeners := d.listeners ++ [(tag, listener)] }
  | .error e => .error e

/-- Adds a listener that waits for the registry. -/
def defer (d : Dispatcher) (tag : String) (listener : Listener) : Dispatcher :=
  { d with pending := d.pending ++ [(tag, listener)] }

/-- Hands an error to the error callback. -/
def report (d : Dispatcher) (error : ProtocolError) : Journal := [.reported d.errorCallback error]

/-- Puts the waiting listeners in place, now that the registry is known. Those for tags it does not
have are reported and dropped. -/
def drainPending (d : Dispatcher) (registry : Registry) : Dispatcher × Journal :=
  let known := d.pending.filter fun entry => registry.contains entry.1
  let unknown := d.pending.filter fun entry => !registry.contains entry.1
  ({ d with listeners := d.listeners ++ known, pending := [] },
    unknown.flatMap fun entry => d.report (.unknownTag entry.1))

def onReady (d : Dispatcher) (callback : String) : Dispatcher :=
  { d with readyCallbacks := d.readyCallbacks ++ [callback] }

/-- Runs every ready callback once. -/
def fireReady (d : Dispatcher) : Dispatcher × Journal :=
  ({ d with readyCallbacks := [] }, d.readyCallbacks.map .ready)

def onClose (d : Dispatcher) (callback : String) : Dispatcher :=
  { d with closeCallbacks := d.closeCallbacks ++ [callback] }

/-- Runs every close callback. -/
def fireClose (d : Dispatcher) (code : CloseCode) (reason : String) : Journal :=
  d.closeCallbacks.map fun callback => .closed callback code reason

/-- Sets the error callback; there is one at most. -/
def onError (d : Dispatcher) (callback : String) : Dispatcher :=
  { d with errorCallback := some callback }

/-- The listeners of a tag, in the order of registration. -/
def listenersOf (d : Dispatcher) (tag : String) : List Listener :=
  (d.listeners.filter fun entry => entry.1 == tag).map Prod.snd

def hasListeners (d : Dispatcher) (tag : String) : Bool := !(d.listenersOf tag).isEmpty

/-- The entry of a listener's failure in the count of errors, and its report. -/
def reportFailure (d : Dispatcher) (tag : String) (error : ProtocolError) : Journal :=
  .counted .listenerError :: d.report (.listener (tag ++ ": " ++ error.message))

/-- Calls every listener of a tag, after those earlier calls, then reports those that failed: how many were called, and
what they did. -/
def dispatchAfter (d : Dispatcher) (earlier : List (String × List Value)) (tag : String) (args : List Value) :
    Nat × Journal :=
  let calls := (d.listenersOf tag).map fun listener => listener.call ⟨args, earlier⟩
  let failures := calls.filterMap fun call =>
    match call.1 with
    | .ok () => none
    | .error e => some e
  (calls.length, calls.flatMap Prod.snd ++ failures.flatMap (d.reportFailure tag))

/-- Dispatches the first packet. -/
def dispatch (d : Dispatcher) (tag : String) (args : List Value) : Nat × Journal := d.dispatchAfter [] tag args

/-- Drops all listeners and ready callbacks. Close and error callbacks stay. -/
def clear (d : Dispatcher) : Dispatcher :=
  { d with listeners := [], pending := [], readyCallbacks := [] }

end Dispatcher

end PacketProtocol
