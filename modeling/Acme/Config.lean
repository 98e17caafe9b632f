import Acme.Json.Record
import Acme.Polling
import Acme.Text.Blank

/-!
# Configurations

What a client has to know before it can begin: above all the URL of the server's directory, which
must not be blank. A configuration can be read from a JSON file; members that the file leaves out
have the values of `Config.default`.
-/

namespace Acme

structure Config where
  directoryUrl : String
  /-- Files with certificates to trust besides the usual ones. -/
  trustedRoots : List String
  /-- Whether resources are fetched with signed requests. -/
  postAsGet : Bool
  userAgent : String
  /-- How many seconds to wait for an answer, if there is a limit of its own. -/
  timeout : Option Nat
  poll : PollPolicy
  /-- The contact of accounts that have none. -/
  contact : List String
  deriving DecidableEq, Repr

/-- Why a configuration cannot be used. -/
inductive ConfigError
  | emptyDirectoryUrl
  /-- The file cannot be read. -/
  | io
  | json
  deriving DecidableEq, Repr

/-- The text of an error, if it has one of its own. -/
def ConfigError.message? : ConfigError → Option String
  | emptyDirectoryUrl => some "Directory URL must not be empty"
  | io | json => none

namespace Config

/-! ### Directories -/

/-- The directory of a well-known server. -/
def productionUrl : String := "https://acme-v02.api.letsencrypt.org/directory"

/-- The directory of a well-known server for tests. -/
def stagingUrl : String := "https://acme-staging-v02.api.letsencrypt.org/directory"

/-- The directory of a test server on the same machine. -/
def localUrl : String := "https://localhost:14000/dir"

/-! ### Configurations -/

/-- The configuration for when nothing is said. -/
def default : Config :=
  { directoryUrl := stagingUrl, trustedRoots := [], postAsGet := true,
    userAgent := "acmeshell-core/0.1.0", timeout := none, poll := .default, contact := [] }

def validate (c : Config) : Except ConfigError Unit :=
  if Text.isBlank c.directoryUrl then .error .emptyDirectoryUrl else .ok ()

def pollOfNode? (n : Json.Node) : Option PollPolicy := do
  let r ← n.record? ["max_tries", "interval_ms"]
  return {
    maxTries := ← r.withDefault "max_tries" (Json.Node.nat? 32) default.poll.maxTries
    interval := ← r.withDefault "interval_ms" (Json.Node.nat? 64) default.poll.interval }

def ofNode? (n : Json.Node) : Option Config := do
  let texts := Json.Node.list? Json.Node.text?
  let r ← n.record?
    ["directory_url", "ca_roots", "post_as_get", "user_agent", "timeout", "poll", "contact"]
  return {
    directoryUrl := ← r.withDefault "directory_url" Json.Node.text? default.directoryUrl
    trustedRoots := ← r.withDefault "ca_roots" texts default.trustedRoots
    postAsGet := ← r.withDefault "post_as_get" Json.Node.bool? default.postAsGet
    userAgent := ← r.withDefault "user_agent" Json.Node.text? default.userAgent
    timeout := ← r.optional "timeout" (Json.Node.nat? 64)
    poll := ← r.withDefault "poll" pollOfNode? default.poll
    contact := ← r.withDefault "contact" texts default.contact }

/-- Reads and checks the configuration in a file, given the octets of the file if it can be read. -/
def ofFile (file : Option Bytes) : Except ConfigError Config := do
  let some b := file | throw .io
  let some c := (Json.Node.read b).bind ofNode? | throw .json
  c.validate
  return c

end Config

end Acme
