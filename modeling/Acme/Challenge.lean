import Acme.Base64
import Acme.Crypto.Sha256
import Acme.Problem
import Acme.Resource
import Acme.Timestamp

/-!
# Challenges

A challenge is one way to prove control over an identifier. The proof is the key authorization: the
challenge's token joined to the thumbprint of the account's key. It is shown in a file on a web
server, in a record of the name service, or by a TLS server.
-/

namespace Acme

/-- The ways to prove control. -/
inductive ChallengeType
  | http
  | dns
  | tlsAlpn
  /-- A way that this library does not know. -/
  | other (name : String)
  deriving DecidableEq, Repr

namespace ChallengeType

/-- The registered name. -/
def text : ChallengeType → String
  | http => "http-01"
  | dns => "dns-01"
  | tlsAlpn => "tls-alpn-01"
  | other name => name

def ofText (name : String) : ChallengeType :=
  if name = "http-01" then http
  else if name = "dns-01" then dns
  else if name = "tls-alpn-01" then tlsAlpn
  else other name

/-- Whether this library knows the type. -/
def isKnown : ChallengeType → Bool
  | other _ => false
  | _ => true

end ChallengeType

inductive ChallengeStatus
  | pending
  | processing
  | valid
  | invalid
  deriving DecidableEq, Repr

namespace ChallengeStatus

/-- The word for a state. -/
def text : ChallengeStatus → String
  | pending => "pending"
  | processing => "processing"
  | valid => "valid"
  | invalid => "invalid"

/-- The state that a word stands for. -/
def ofText? (word : String) : Option ChallengeStatus :=
  [pending, processing, valid, invalid].find? (·.text == word)

/-- Whether the state is final. -/
def isTerminal : ChallengeStatus → Bool
  | valid | invalid => true
  | pending | processing => false

end ChallengeStatus

/-- A challenge. Its URL is its identifier. -/
structure Challenge where
  type : ChallengeType
  url : String
  token : String
  status : ChallengeStatus
  validated : Option Timestamp
  error : Option Problem
  deriving DecidableEq, Repr

namespace Challenge

/-- Where a web server shows the key authorization. -/
def httpPath (c : Challenge) : String := "/.well-known/acme-challenge/" ++ c.token

def keyAuthorization (token thumbprint : String) : String := token ++ "." ++ thumbprint

/-- The content of the record that shows a key authorization. -/
def recordValue (keyAuthorization : String) : String :=
  Base64.toUrl (Sha256.hash (Bytes.ofText keyAuthorization))

/-- Drops every wildcard label in front. -/
def dropWildcards : List Char → List Char
  | '*' :: '.' :: rest => dropWildcards rest
  | cs => cs

def recordName (host : String) : String :=
  "_acme-challenge." ++ String.ofList (dropWildcards host.toList)

def toJson (c : Challenge) : Json :=
  .object ([("type", .string c.type.text), ("url", .string c.url), ("token", .string c.token),
      ("status", .string c.status.text)]
    ++ Json.member? "validated" (.string ·.text) c.validated
    ++ Json.member? "error" Problem.toJson c.error)

/-- Reads a challenge. Only the type has to be there. -/
def ofNode? (n : Json.Node) : Option Challenge := do
  let r ← n.record? ["type", "url", "token", "status", "validated", "error"]
  let type ← r.required "type" Json.Node.text?
  let url ← r.withDefault "url" Json.Node.text? ""
  let token ← r.withDefault "token" Json.Node.text? ""
  let status ← r.withDefault "status" (Json.Node.nameAs? ChallengeStatus.ofText?) .pending
  let validated ← r.optional "validated" (Json.Node.textAs? Timestamp.ofText?)
  let error ← r.optional "error" Problem.ofNode?
  return { type := .ofText type, url, token, status, validated, error }

instance : Resource Challenge where
  id := Challenge.url
  withId c url := { c with url }
  status c := c.status.text
  isTerminal c := c.status.isTerminal
  toJson := Challenge.toJson
  ofNode? := Challenge.ofNode?

end Challenge

end Acme
