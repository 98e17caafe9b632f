import Acme.Challenge
import Acme.Identifier

/-!
# Authorizations

An authorization is the server's record of whether the account may have certificates for one
identifier, together with the challenges that can still show it.
-/

namespace Acme

inductive AuthorizationStatus
  | pending
  | valid
  | invalid
  | deactivated
  | expired
  | revoked
  deriving DecidableEq, Repr

namespace AuthorizationStatus

/-- The word for a state. -/
def text : AuthorizationStatus → String
  | pending => "pending"
  | valid => "valid"
  | invalid => "invalid"
  | deactivated => "deactivated"
  | expired => "expired"
  | revoked => "revoked"

/-- The state that a word stands for. -/
def ofText? (word : String) : Option AuthorizationStatus :=
  [pending, valid, invalid, deactivated, expired, revoked].find? (·.text == word)

/-- Whether the state is final. -/
def isTerminal : AuthorizationStatus → Bool
  | pending => false
  | _ => true

end AuthorizationStatus

structure Authorization where
  /-- Its URL, which the server's description does not contain. -/
  id : String
  status : AuthorizationStatus
  identifier : Identifier
  challenges : List Challenge
  expires : Option Timestamp
  /-- Whether it is for all names below the identifier. -/
  wildcard : Bool
  deriving DecidableEq, Repr

namespace Authorization

def challenge? (a : Authorization) (type : ChallengeType) : Option Challenge :=
  a.challenges.find? (·.type == type)

/-- The name that records and servers are set up for. -/
def host (a : Authorization) : String := a.identifier.value

def toJson (a : Authorization) : Json :=
  .object ([("status", .string a.status.text), ("identifier", a.identifier.toJson),
      ("challenges", .array (a.challenges.map Challenge.toJson))]
    ++ Json.member? "expires" (.string ·.text) a.expires
    ++ [("wildcard", .bool a.wildcard)])

/-- Reads an authorization. Only the identifier has to be there. -/
def ofNode? (n : Json.Node) : Option Authorization := do
  let r ← n.record? ["status", "identifier", "challenges", "expires", "wildcard"]
  let status ← r.withDefault "status" (Json.Node.nameAs? AuthorizationStatus.ofText?) .pending
  let identifier ← r.required "identifier" Identifier.ofNode?
  let challenges ← r.withDefault "challenges" (Json.Node.list? Challenge.ofNode?) []
  let expires ← r.optional "expires" (Json.Node.textAs? Timestamp.ofText?)
  let wildcard ← r.withDefault "wildcard" Json.Node.bool? false
  return { id := "", status, identifier, challenges, expires, wildcard }

instance : Resource Authorization where
  id := Authorization.id
  withId a id := { a with id }
  status a := a.status.text
  isTerminal a := a.status.isTerminal
  toJson := Authorization.toJson
  ofNode? := Authorization.ofNode?

end Authorization

end Acme
