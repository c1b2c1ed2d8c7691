import PacketProtocol.Config.Level
import PacketProtocol.Text.Utf8
import PacketProtocol.Toml.Document
/-!
# Settings in files

Settings as a TOML document with the tables `server`, `client` and `logging`. A table that is missing
stands for its defaults; one that is there has all its settings, but for those that may be left out.
Whatever else is in the document is passed over.
-/

namespace PacketProtocol

open scoped Numerals

namespace Toml.Entries

/-- The text under a key. -/
def string? (entries : Entries) (key : String) : Option String :=
  match entries.lookup key with
  | some (.string text) => some text
  | _ => none

def bool? (entries : Entries) (key : String) : Option Bool :=
  match entries.lookup key with
  | some (.boolean b) => some b
  | _ => none

/-- The number under a key, if it is not negative and not over a bound. -/
def nat? (entries : Entries) (key : String) (bound : Nat := 2 ^ (64 : Nat) - 1) : Option Nat :=
  match entries.lookup key with
  | some (.integer n) => if 0 ≤ n ∧ n ≤ bound then some n.toNat else none
  | _ => none

/-- The text under a key that may be missing. -/
def optionalString? (entries : Entries) (key : String) : Option (Option String) :=
  match entries.lookup key with
  | none => some none
  | some _ => some <$> entries.string? key

/-- The settings of a table that may be missing. -/
def section? {α : Type} (entries : Entries) (key : String) (read : Entries → Option α) (default : α) :
    Option α :=
  match entries.lookup key with
  | none => some default
  | some (.table _ inner) => read inner
  | some _ => none

end Toml.Entries

/-! ## Reading -/

def ServerConfig.ofToml? (entries : Toml.Entries) : Option ServerConfig := do
  return {
    rateWindow := UInt8.ofNat (← entries.nat? "rate_window_secs" 255)
    handshakePacket := ← entries.optionalString? "handshake_packet"
    handshakeTimeout := ← entries.nat? "handshake_timeout"
    maxConnections := ← entries.nat? "max_connections" }

def ClientConfig.ofToml? (entries : Toml.Entries) : Option ClientConfig := do
  return {
    connectTimeout := ← entries.nat? "connect_timeout"
    maxDeferred := ← entries.nat? "max_deferred" }

def LoggingConfig.ofToml? (entries : Toml.Entries) : Option LoggingConfig := do
  return {
    appName := ← entries.string? "app_name"
    level := ← (entries.string? "log_level").bind LogLevel.ofText?
    toConsole := ← entries.bool? "log_to_console"
    toFile := ← entries.bool? "log_to_file"
    filePath := ← entries.optionalString? "log_file_path"
    jsonFormat := ← entries.bool? "json_format" }

namespace Config

def ofToml? (entries : Toml.Entries) : Option Config := do
  return {
    server := ← entries.section? "server" ServerConfig.ofToml? {}
    client := ← entries.section? "client" ClientConfig.ofToml? {}
    logging := ← entries.section? "logging" LoggingConfig.ofToml? {} }

/-- Reads settings from the text of a document. -/
def parse (text : String) : Result Config :=
  match (Toml.parse text).bind ofToml? with
  | some config => .ok config
  | none => .error (.config .cannotParse)

/-- Reads settings from a file: its octets, if there is such a file. -/
def ofFile : Option Bytes → Result Config
  | none => .error (.config .cannotOpen)
  | some bytes =>
    match Utf8.decode bytes with
    | some text => parse text
    | none => .error (.config .cannotRead)

end Config

/-! ## Writing -/

/-- A line with a number, which must fit a signed integer of 64 bits. -/
def numberLine (key : String) (n : Nat) : Result (List String) :=
  if n < 2 ^ (63 : Nat) then .ok [s!"{key} = {n}"] else .error (.config .cannotSerialize)

def boolLine (key : String) (b : Bool) : List String := [s!"{key} = {b}"]

def stringLine (key text : String) : List String := [s!"{key} = " ++ Toml.writeString text]

/-- A line with a text, if there is one. -/
def optionalLine (key : String) : Option String → List String
  | none => []
  | some text => stringLine key text

def ServerConfig.lines (config : ServerConfig) : Result (List String) :=
  return "[server]" :: (← numberLine "rate_window_secs" config.rateWindow.toNat)
    ++ optionalLine "handshake_packet" config.handshakePacket
    ++ (← numberLine "handshake_timeout" config.handshakeTimeout)
    ++ (← numberLine "max_connections" config.maxConnections)

def ClientConfig.lines (config : ClientConfig) : Result (List String) :=
  return "[client]" :: (← numberLine "connect_timeout" config.connectTimeout)
    ++ (← numberLine "max_deferred" config.maxDeferred)

def LoggingConfig.lines (config : LoggingConfig) : List String :=
  "[logging]" :: stringLine "app_name" config.appName
    ++ stringLine "log_level" config.level.name
    ++ boolLine "log_to_console" config.toConsole
    ++ boolLine "log_to_file" config.toFile
    ++ optionalLine "log_file_path" config.filePath
    ++ boolLine "json_format" config.jsonFormat

namespace Config

/-- The document that holds settings. -/
def print (config : Config) : Result String :=
  return "\n".intercalate
    ((← config.server.lines) ++ "" :: (← config.client.lines) ++ "" :: config.logging.lines ++ [""])

end Config

end PacketProtocol
