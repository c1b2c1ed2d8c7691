import PacketProtocol.Packet.Basic
/-!
# Settings

What a server, a client and their logs can be told. `problems` lists what is wrong with settings, in
a fixed order; `check` turns the list into an error. Times are in milliseconds.
-/

namespace PacketProtocol

/-- How much a log says, least first. -/
inductive LogLevel where
  | error
  | warn
  | info
  | debug
  | trace
deriving DecidableEq, Repr, Inhabited

structure ServerConfig where
  /-- Length of the rate window in seconds; zero for no rate limits. -/
  rateWindow : UInt8 := 1
  /-- The tag a client must send before any other. -/
  handshakePacket : Option String := none
  /-- How long a client may take to send it. -/
  handshakeTimeout : Nat := 10000
  /-- Most connections of a hub. -/
  maxConnections : Nat := 1000
deriving DecidableEq, Repr, Inhabited

structure ClientConfig where
  /-- How long to wait for the server's handshake. -/
  connectTimeout : Nat := 10000
  /-- Most payloads held back under one tag; zero for no limit. -/
  maxDeferred : Nat := 0
deriving DecidableEq, Repr, Inhabited

structure LoggingConfig where
  appName : String := "tagwire"
  level : LogLevel := .info
  toConsole : Bool := true
  toFile : Bool := false
  filePath : Option String := none
  jsonFormat : Bool := false
deriving DecidableEq, Repr, Inhabited

structure Config where
  server : ServerConfig := {}
  client : ClientConfig := {}
  logging : LoggingConfig := {}
deriving DecidableEq, Repr, Inhabited

/-- The rate window in milliseconds, if there is one. -/
def rateWindowMs (seconds : UInt8) : Option Nat :=
  if seconds = 0 then none else some (1000 * seconds.toNat)

/-- What is wrong with a timeout of the given name. -/
def timeoutProblems (name : String) (ms : Nat) : List String :=
  if ms < 100 then [name ++ " timeout too short (minimum: 100ms)"]
  else if 300 < ms / 1000 then [name ++ " timeout too long (maximum: 300s)"]
  else []

namespace ServerConfig

def problems (config : ServerConfig) : List String :=
  let tag := match config.handshakePacket with
    | some tag =>
      if (Packet.validateTag tag).isOk then [] else [s!"Invalid handshake packet tag: '{tag}'"]
    | none => []
  let connections :=
    if config.maxConnections = 0 then ["Max connections must be greater than 0"]
    else if 100000 < config.maxConnections then
      [s!"Max connections very high: {config.maxConnections} (ensure system resources can support this)"]
    else []
  tag ++ timeoutProblems "Handshake" config.handshakeTimeout ++ connections

end ServerConfig

def ClientConfig.problems (config : ClientConfig) : List String :=
  timeoutProblems "Connect" config.connectTimeout

namespace LoggingConfig

/-- Names from the end of a path on: empty ones and single dots name nothing there. -/
def dropBlankNames (names : List String) : List String :=
  names.dropWhile fun name => name == "" || name == "."

/-- The directory part of a path: all before its last name. What a path begins with, a separator or a
single dot, is no name that can be passed over. A path that names nothing has no directory. -/
def parent? (path : String) : Option String :=
  let (start, body) := match path.toList with
    | '/' :: body => ("/", body)
    | ['.'] => (".", [])
    | '.' :: '/' :: body => (".", '/' :: body)
    | body => ("", body)
  match dropBlankNames ((String.ofList body).splitOn "/").reverse with
  | [] => if start = "." then some "" else none
  | _ :: names => some (start ++ "/".intercalate (dropBlankNames names).reverse)

/-- What is wrong with the settings, given which directories there are. -/
def problems (directoryExists : String → Bool) (config : LoggingConfig) : List String :=
  let size := config.appName.utf8ByteSize
  let name :=
    if size = 0 then ["Application name cannot be empty"]
    else if 64 < size then [s!"Application name too long: {size} characters (maximum: 64)"]
    else []
  let file :=
    if !config.toFile then []
    else
      match config.filePath with
      | none => ["log_file_path must be specified when log_to_file is true"]
      | some path =>
        match parent? path with
        | some directory =>
          if directory.isEmpty || directoryExists directory then []
          else [s!"Log file directory does not exist: {directory}"]
        | none => []
  let outputs :=
    if config.toConsole || config.toFile then []
    else ["At least one logging output (console or file) must be enabled"]
  name ++ file ++ outputs

end LoggingConfig

namespace Config

def problems (directoryExists : String → Bool) (config : Config) : List String :=
  config.server.problems ++ config.client.problems ++ config.logging.problems directoryExists

/-- Fails with all problems if there are any. -/
def check (directoryExists : String → Bool) (config : Config) : Result Unit :=
  match config.problems directoryExists with
  | [] => .ok ()
  | problems => .error (.config (.invalid problems))

end Config

end PacketProtocol
