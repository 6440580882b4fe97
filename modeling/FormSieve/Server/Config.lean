import FormSieve.Json.Decoder
import FormSieve.Json.Message
import FormSieve.Provider.Failure
import FormSieve.Submission.PageLimit

/-!
# Configuration

Where the server listens, which origins may read its answers, and how the provider is reached.
A configuration is a JSON document in which everything may be left out.
-/

namespace FormSieve

/-- The variable of the environment that gives the provider's address if the configuration does
not. -/
def baseVariable : String := "SECRET_BASE_URL"

inductive ConfigFault where
  /-- The file cannot be read. -/
  | unreadable (path reason : String)
  /-- The file is no configuration. -/
  | malformed (fault : String)
  | zeroLimit
  /-- Nothing says where the provider is. -/
  | noProvider
  | provider (failure : Failure)
deriving DecidableEq, Repr

def ConfigFault.message : ConfigFault → String
  | unreadable path reason => "Cannot read config file " ++ path ++ ": " ++ reason
  | malformed fault => "Invalid config JSON: " ++ fault
  | zeroLimit => "Invalid config: default_limit must be at least 1"
  | noProvider => "Invalid config: upstream_base_url is not set and " ++ baseVariable ++ " is empty"
  | provider failure => failure.message

structure Config where
  host : String := "0.0.0.0"
  /-- The number of the service on the host. -/
  service : UInt16 := 3000
  /-- The origins whose pages may read answers; any if there are none. -/
  origins : List String := []
  providerBase : Option String := none
  /-- Whether the provider needs no valid certificate. -/
  trusting : Bool := false
  /-- The page limit of requests that give none. -/
  defaultLimit : UInt64 := PageLimit.standard.value
deriving DecidableEq, Repr

namespace Config

open Json

/-- The members of a configuration read so far. -/
structure Draft where
  host : Option String := none
  service : Option UInt16 := none
  origins : Option (List String) := none
  providerBase : Option (Option String) := none
  trusting : Option Bool := none
  defaultLimit : Option UInt64 := none

/-- Whatever is not given is as in the configuration without any members. -/
def finish (draft : Draft) : Config where
  host := draft.host.getD ({} : Config).host
  service := draft.service.getD ({} : Config).service
  origins := draft.origins.getD ({} : Config).origins
  providerBase := draft.providerBase.getD ({} : Config).providerBase
  trusting := draft.trusting.getD ({} : Config).trusting
  defaultLimit := draft.defaultLimit.getD ({} : Config).defaultLimit

/-- Reads the rest of a member from behind its name. -/
def member (room : Nat) (draft : Draft) (name : String) (bs : Bytes) : Reading Draft :=
  if name = "host" then
    Decoder.field name draft.host Decoder.text (fun s => { draft with host := some s }) room bs
  else if name = "port" then
    Decoder.field name draft.service Decoder.unsigned16
      (fun n => { draft with service := some n }) room bs
  else if name = "cors_origins" then
    Decoder.field name draft.origins (Decoder.list Decoder.text)
      (fun l => { draft with origins := some l }) room bs
  else if name = "upstream_base_url" then
    Decoder.field name draft.providerBase (Decoder.optional Decoder.text)
      (fun o => { draft with providerBase := some o }) room bs
  else if name = "accept_invalid_certs" then
    Decoder.field name draft.trusting Decoder.boolean
      (fun b => { draft with trusting := some b }) room bs
  else if name = "default_limit" then
    Decoder.field name draft.defaultLimit Decoder.unsigned64
      (fun n => { draft with defaultLimit := some n }) room bs
  else Decoder.unknownField draft bs

/-- Reads a configuration written as the list of its members, which may end early. -/
def inOrder : Decoder Config := fun room bs =>
  let standard : Config := {}
  (Decoder.item 0 (.ok standard.host) Decoder.text room bs).andThen fun host rest =>
    (Decoder.item 1 (.ok standard.service) Decoder.unsigned16 room rest).andThen
      fun service rest =>
    (Decoder.item 2 (.ok standard.origins) (Decoder.list Decoder.text) room rest).andThen
      fun origins rest =>
    (Decoder.item 3 (.ok standard.providerBase) (Decoder.optional Decoder.text) room
        rest).andThen fun providerBase rest =>
    (Decoder.item 4 (.ok standard.trusting) Decoder.boolean room rest).andThen
      fun trusting rest =>
    (Decoder.item 5 (.ok standard.defaultLimit) Decoder.unsigned64 room rest).andThen
      fun defaultLimit rest =>
    .ok (⟨host, service, origins, providerBase, trusting, defaultLimit⟩, rest)

def decoder : Decoder Config :=
  Decoder.record
    { record := "HttpServerConfig", empty := {}, member := member,
      finish := fun draft => .ok (finish draft), inOrder := some inOrder }

def print (c : Config) : String :=
  printRecord
    [("host", printText c.host), ("port", c.service.toNat.repr),
      ("cors_origins", printList (c.origins.map printText)),
      ("upstream_base_url",
        match c.providerBase with
        | some base => printText base
        | none => "null"),
      ("accept_invalid_certs", if c.trusting then "true" else "false"),
      ("default_limit", c.defaultLimit.toNat.repr)]

/-- The page limit of requests that give none. -/
def pageLimit (c : Config) : Except ConfigFault PageLimit :=
  match PageLimit.ofUInt64? c.defaultLimit with
  | some limit => .ok limit
  | none => .error .zeroLimit

/-- The configuration in a file, from the file's path and what reading it came to. -/
def load (path : String) (content : Except String Bytes) : Except ConfigFault Config :=
  match content with
  | .error reason => .error (.unreadable path reason)
  | .ok bs =>
    if (Text.ofBytes? bs).isNone then
      .error (.unreadable path "stream did not contain valid UTF-8")
    else
      match decode decoder bs with
      | .error refusal => .error (.malformed refusal.message)
      | .ok config =>
        match config.pageLimit with
        | .error fault => .error fault
        | .ok _ => .ok config

/-- Where the server listens. -/
def address (c : Config) : String := c.host ++ ":" ++ c.service.toNat.repr

/-- Where the provider is: what the configuration says and, if it says nothing, what the
environment does. -/
def resolveBase (c : Config) (environment : Option String) : Except ConfigFault String :=
  match c.providerBase <|> environment with
  | some base => if Text.isBlank base then .error .noProvider else .ok base
  | none => .error .noProvider

end Config

end FormSieve
