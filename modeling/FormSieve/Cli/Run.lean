import FormSieve.Cli.Arguments
import FormSieve.Net.SocketAddress
import FormSieve.Server.Basic

/-!
# Running commands

What the commands do with what they are given, and how they fail. Filtering a page either writes
the whole result as one line or writes nothing.
-/

namespace FormSieve.Cli

/-- Why a command fails. -/
inductive Fault where
  | config (fault : ConfigFault)
  /-- The input is no text. -/
  | unreadableInput
  /-- The input is blank. -/
  | emptyInput
  /-- The input is no page. -/
  | malformedInput (refusal : Json.Refusal)
  | zeroLimit
  | rejected (rejection : Rejection)
  /-- The address to listen at is no socket address. -/
  | badAddress
  /-- The server cannot listen. -/
  | notListening (reason : String)
deriving DecidableEq, Repr

namespace Fault

/-- The kind of a fault, for other programs. -/
def code : Fault → String
  | config _ => "FILTER_CLI_CONFIG_ERROR"
  | unreadableInput | emptyInput | malformedInput _ => "FILTER_CLI_IO_ERROR"
  | zeroLimit | rejected _ => "FILTER_CLI_INVALID_INPUT"
  | badAddress | notListening _ => "FILTER_CLI_SERVER_FAILED"

def message : Fault → String
  | config fault => fault.message
  | unreadableInput => "stream did not contain valid UTF-8"
  | emptyInput => "Empty input"
  | malformedInput refusal => "JSON error: " ++ refusal.message
  | zeroLimit => "limit must be at least 1"
  | rejected rejection => rejection.detail
  | badAddress => "HTTP server failed: invalid socket address syntax"
  | notListening reason => "HTTP server failed: " ++ reason

/-- The fault as it is shown. -/
def display (fault : Fault) : String := fault.code ++ ": " ++ fault.message

end Fault

/-! ## Filtering a page -/

/-- The limit that is given, or the usual one. -/
def limitOf (limit : Option UInt64) : Except Fault PageLimit :=
  match limit with
  | none => .ok .standard
  | some n =>
    match PageLimit.ofUInt64? n with
    | some limit => .ok limit
    | none => .error .zeroLimit

/-- The page in the input. -/
def readPage (input : Bytes) : Except Fault Page :=
  match Text.ofBytes? input with
  | none => .error .unreadableInput
  | some text =>
    if Text.isBlank text then .error .emptyInput
    else
      match Json.decode Page.decoder input with
      | .ok page => .ok page
      | .error refusal => .error (.malformedInput refusal)

/-- Filters the page in the input; yields what is written. -/
def filter (filters : String) (limit : Option UInt64) (input : Bytes) : Except Fault String := do
  let limit ← limitOf limit
  let page ← readPage input
  match filterPage (.single filters) page limit with
  | .error rejection => .error (.rejected rejection)
  | .ok filtered => return filtered.print ++ "\n"

/-- What is left of a command that has ended: what it has written, what it has said about its
fault, and how the system is told. -/
structure Ending where
  output : String
  diagnostics : String
  exitCode : UInt32
deriving DecidableEq, Repr

/-- How filtering the page in the input ends. -/
def ending (filters : String) (limit : Option UInt64) (input : Bytes) : Ending :=
  match filter filters limit input with
  | .error fault => ⟨"", fault.display ++ "\n", 1⟩
  | .ok output => ⟨output, "", 0⟩

/-! ## Starting the server -/

/-- A server that is ready to listen at an address. -/
structure Ready where
  server : Server
  remote : Remote
  address : SocketAddress

/-- Why no server listens. -/
inductive Stop where
  | fault (fault : Fault)
  /-- There can be no such server. -/
  | broken (fault : SetupFault)
deriving DecidableEq, Repr

/-- The configuration to serve: from a file, given by its path and what reading it came to, and
with another service if one is given. -/
def configOf (file : Option (String × Except String Bytes)) (service : Option UInt16) :
    Except ConfigFault Config := do
  let config ←
    match file with
    | some (path, content) => Config.load path content
    | none => .ok {}
  return { config with service := service.getD config.service }

/-- The line that announces the server. -/
def startingLine (address : SocketAddress) : LogLine where
  severity := .info
  event := "SERVER_STARTING"
  fields := [("addr", address.print), ("route", "/api/forms/:form_id/filteredResponses")]

/-- Makes a server ready to listen. -/
def prepare (file : Option (String × Except String Bytes)) (service : Option UInt16)
    (environment : Option String) : Except Stop Ready :=
  match configOf file service with
  | .error fault => .error (.fault (.config fault))
  | .ok config =>
    match Server.ofConfigAndEnvironment config environment with
    | .error (.config fault) => .error (.fault (.config fault))
    | .error fault => .error (.broken fault)
    | .ok (server, remote) =>
      match SocketAddress.parse? config.address with
      | none => .error (.fault .badAddress)
      | some address => .ok ⟨server, remote, address⟩

end FormSieve.Cli
