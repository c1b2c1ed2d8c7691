import PacketProtocol.Config.Settings
import PacketProtocol.Text.Numeral
/-!
# Names of log levels

A level is written by its name in lower case, and read by its name in any case or by its number, from
1 for the fewest messages to 5.
-/

namespace PacketProtocol.LogLevel

open scoped Numerals

def name : LogLevel → String
  | error => "error"
  | warn => "warn"
  | info => "info"
  | debug => "debug"
  | trace => "trace"

/-- All levels, numbered from 1. -/
def all : List LogLevel := [error, warn, info, debug, trace]

/-- The level with a number. -/
def ofNumber? (n : Nat) : Option LogLevel := if n = 0 then none else all[n - 1]?

/-- The level a text means. -/
def ofText? (text : String) : Option LogLevel :=
  match (Text.unsigned? (2 ^ (64 : Nat) - 1) text).bind ofNumber? with
  | some level => some level
  | none => all.find? fun level => level.name.toList == text.toList.map Char.toLower

@[simp]
theorem ofText?_name (level : LogLevel) : ofText? level.name = some level := by
  cases level <;> decide

end PacketProtocol.LogLevel
