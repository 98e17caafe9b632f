import Acme.Identifier
import Acme.Jwk
import Acme.Text.Quoted

/-!
# Payloads

What requests say: the JSON documents that are signed and sent. A payload is checked before it is
written, so `toBytes` refuses what the server would refuse in any case, and says why.

Contacts are URLs; one without a scheme is taken for a mail address (`normalContact`).
-/

namespace Acme

/-- The documents that requests carry. -/
inductive Payload
  /-- Asks for an account. -/
  | newAccount (contact : List String) (termsAgreed : Bool)
  /-- Changes the contacts of an account. -/
  | updateAccount (contact : List String)
  /-- Changes the state of an account or authorization. -/
  | deactivate (status : String)
  /-- Asks for a certificate for identifiers. -/
  | newOrder (identifiers : List Identifier)
  /-- Asks the server to check a challenge. -/
  | challenge
  /-- Hands in the signing request, in base64. -/
  | finalize (csr : String)
  /-- Replaces the key of an account. -/
  | keyChange (account : String) (oldKey : Jwk)
  /-- Revokes a certificate, in base64, possibly for a reason. -/
  | revoke (certificate : String) (reason : Option UInt8)
  deriving DecidableEq, Repr

/-- Why a payload is refused. -/
inductive PayloadError
  | missingContact
  | termsNotAgreed
  | noIdentifiers
  | unsupportedIdentifier (type : String)
  | invalidIdentifier (value : String)
  | emptyField (name : String)
  deriving DecidableEq, Repr

namespace PayloadError

def cause : PayloadError → String
  | missingContact => "Contact information is required"
  | termsNotAgreed => "Terms of service must be agreed"
  | noIdentifiers => "At least one identifier is required"
  | unsupportedIdentifier type => "Unsupported identifier type: " ++ type
  | invalidIdentifier value => "Invalid identifier value: " ++ Text.quote value
  | emptyField name => "Empty field: " ++ name

def message (e : PayloadError) : String := "Invalid payload: " ++ e.cause

end PayloadError

namespace Payload

/-- A contact as a URL: a mail address if it has no scheme. -/
def normalContact (contact : String) : String :=
  if contact.toList.contains ':' then contact else "mailto:" ++ contact

/-- The payload that asks for an account and agrees to the terms of service. -/
def forNewAccount (contact : List String) : Payload := newAccount (contact.map normalContact) true

/-- The payload that replaces the contacts of an account. -/
def forUpdateAccount (contact : List String) : Payload := updateAccount (contact.map normalContact)

/-- The payload that deactivates an account or authorization. -/
def forDeactivate : Payload := deactivate "deactivated"

/-- The payload that hands in a signing request. -/
def forFinalize (csr : Bytes) : Payload := finalize (Base64.toUrl csr)

def forRevoke (certificate : Bytes) (reason : Option UInt8) : Payload :=
  revoke (Base64.toUrl certificate) reason

/-- Why an identifier cannot be ordered: its type is neither a name nor an address, or its value
is not one of its type. -/
def identifierError? (i : Identifier) : Option PayloadError :=
  if i.type = "dns" then if i.value.isEmpty then some (.invalidIdentifier i.value) else none
  else if i.type = "ip" then
    if (IpAddress.ofText? i.value).isSome then none else some (.invalidIdentifier i.value)
  else some (.unsupportedIdentifier i.type)

/-- Why a payload is refused, if it is. Of several identifiers at fault the first counts. -/
def error? : Payload → Option PayloadError
  | newAccount _ agreed => if agreed then none else some .termsNotAgreed
  | updateAccount contact => if contact.isEmpty then some .missingContact else none
  | deactivate _ => none
  | newOrder identifiers =>
    if identifiers.isEmpty then some .noIdentifiers else identifiers.findSome? identifierError?
  | challenge => none
  | finalize csr => if csr.isEmpty then some (.emptyField "csr") else none
  | keyChange account _ => if account.isEmpty then some (.emptyField "account") else none
  | revoke certificate _ => if certificate.isEmpty then some (.emptyField "certificate") else none

def toJson : Payload → Json
  | newAccount contact agreed =>
    .object [("contact", Json.strings contact), ("termsOfServiceAgreed", .bool agreed)]
  | updateAccount contact => .object [("contact", Json.strings contact)]
  | deactivate status => .object [("status", .string status)]
  | newOrder identifiers => .object [("identifiers", .array (identifiers.map Identifier.toJson))]
  | challenge => .object []
  | finalize csr => .object [("csr", .string csr)]
  | keyChange account oldKey =>
    .object [("account", .string account), ("oldKey", oldKey.toJson)]
  | revoke certificate reason =>
    .object ([("certificate", .string certificate)] ++ Json.member? "reason" (Json.nat ·.toNat) reason)

/-- The document's octets, if the payload is not refused. -/
def toBytes (p : Payload) : Except PayloadError Bytes :=
  match p.error? with
  | some e => .error e
  | none => .ok (Bytes.ofText p.toJson.text)

inductive Kind
  | newAccount
  | updateAccount
  | deactivate
  | newOrder
  | challenge
  | finalize
  | keyChange
  | revoke
  deriving DecidableEq, Repr

def Kind.name : Kind → String
  | .newAccount => "newAccount"
  | .updateAccount => "updateAccount"
  | .deactivate => "deactivate"
  | .newOrder => "newOrder"
  | .challenge => "challenge"
  | .finalize => "finalize"
  | .keyChange => "keyChange"
  | .revoke => "revoke"

def Kind.named? (name : String) : Option Kind :=
  [Kind.newAccount, .updateAccount, .deactivate, .newOrder, .challenge, .finalize, .keyChange,
    .revoke].find? (·.name == name)

def kind : Payload → Kind
  | newAccount .. => .newAccount
  | updateAccount .. => .updateAccount
  | deactivate .. => .deactivate
  | newOrder .. => .newOrder
  | challenge => .challenge
  | finalize .. => .finalize
  | keyChange .. => .keyChange
  | revoke .. => .revoke

def ofNode? (kind : Kind) (n : Json.Node) : Option Payload :=
  let texts := Json.Node.list? Json.Node.text?
  match kind with
  | .newAccount => do
    let r ← n.record? ["contact", "termsOfServiceAgreed"]
    return newAccount (← r.required "contact" texts)
      (← r.required "termsOfServiceAgreed" Json.Node.bool?)
  | .updateAccount => do
    let r ← n.record? ["contact"]
    return updateAccount (← r.required "contact" texts)
  | .deactivate => do
    let r ← n.record? ["status"]
    return deactivate (← r.required "status" Json.Node.text?)
  | .newOrder => do
    let r ← n.record? ["identifiers"]
    return newOrder (← r.required "identifiers" (Json.Node.list? Identifier.ofNode?))
  | .challenge => do
    let _ ← n.record? []
    return challenge
  | .finalize => do
    let r ← n.record? ["csr"]
    return finalize (← r.required "csr" Json.Node.text?)
  | .keyChange => do
    let r ← n.record? ["account", "oldKey"]
    return keyChange (← r.required "account" Json.Node.text?)
      (← r.required "oldKey" (Jwk.ofNode? (Json.Node.nestingLimit - 1)))
  | .revoke => do
    let r ← n.record? ["certificate", "reason"]
    return revoke (← r.required "certificate" Json.Node.text?)
      (← r.nullable "reason" Json.Node.octet?)

/-- Reads a payload of a kind from its octets. -/
def ofBytes? (kind : Kind) (b : Bytes) : Option Payload := (Json.Node.read b).bind (ofNode? kind)

end Payload

end Acme
