import Acme.Identifier
import Acme.Problem
import Acme.Resource
import Acme.Timestamp

/-!
# Orders

An order asks the server for a certificate for some identifiers. The server names an authorization
for each of them, a URL to finalize the order once they are all valid, and a URL of the certificate
once it is issued.
-/

namespace Acme

inductive OrderStatus
  | pending
  | ready
  | processing
  | valid
  | invalid
  deriving DecidableEq, Repr

namespace OrderStatus

/-- The word for a state. -/
def text : OrderStatus → String
  | pending => "pending"
  | ready => "ready"
  | processing => "processing"
  | valid => "valid"
  | invalid => "invalid"

/-- The state that a word stands for. -/
def ofText? (word : String) : Option OrderStatus :=
  [pending, ready, processing, valid, invalid].find? (·.text == word)

/-- The text of the error about a word that stands for no state. -/
def unknownMessage (word : String) : String := "Invalid status value: " ++ word

/-- Whether the state is final. -/
def isTerminal : OrderStatus → Bool
  | valid | invalid => true
  | pending | ready | processing => false

end OrderStatus

structure Order where
  /-- Its URL, which the server's description does not contain; empty while it has none. -/
  id : String
  status : OrderStatus
  expires : Option Timestamp
  identifiers : List Identifier
  /-- The URLs of the authorizations. -/
  authorizations : List String
  /-- The URL that finalizes the order. -/
  finalize : String
  /-- The URL of the certificate. -/
  certificate : Option String
  error : Option Problem
  deriving DecidableEq, Repr

namespace Order

/-- An order that has not been sent yet. -/
def new (identifiers : List Identifier) : Order :=
  { id := "", status := .pending, expires := none, identifiers, authorizations := [], finalize := "",
    certificate := none, error := none }

/-- An order for hosts and addresses. -/
def forNames (names : List String) : Order := new (names.map Identifier.ofName)

def toJson (o : Order) : Json :=
  .object ([("status", .string o.status.text)]
    ++ Json.member? "expires" (.string ·.text) o.expires
    ++ [("identifiers", .array (o.identifiers.map Identifier.toJson)),
      ("authorizations", Json.strings o.authorizations), ("finalize", .string o.finalize)]
    ++ Json.member? "certificate" .string o.certificate
    ++ Json.member? "error" Problem.toJson o.error)

/-- Reads an order. Only the identifiers have to be there. -/
def ofNode? (n : Json.Node) : Option Order := do
  let r ← n.record? ["status", "expires", "identifiers", "authorizations", "finalize",
    "certificate", "error"]
  let status ← r.withDefault "status" (Json.Node.nameAs? OrderStatus.ofText?) .pending
  let expires ← r.optional "expires" (Json.Node.textAs? Timestamp.ofText?)
  let identifiers ← r.required "identifiers" (Json.Node.list? Identifier.ofNode?)
  let authorizations ← r.withDefault "authorizations" (Json.Node.list? Json.Node.text?) []
  let finalize ← r.withDefault "finalize" Json.Node.text? ""
  let certificate ← r.optional "certificate" Json.Node.text?
  let error ← r.optional "error" Problem.ofNode?
  return { id := "", status, expires, identifiers, authorizations, finalize, certificate, error }

instance : Resource Order where
  id := Order.id
  withId o id := { o with id }
  status o := o.status.text
  isTerminal o := o.status.isTerminal
  toJson := Order.toJson
  ofNode? := Order.ofNode?

end Order

end Acme
