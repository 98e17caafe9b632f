import Acme.Http.Header
import Acme.Http.Status
import Acme.Problem
import Acme.Text.Lossy

/-!
# Answers

An HTTP answer: status, header and body. Of the header the protocol uses the nonce for the next
request, the location of a resource, and the type of the body.
-/

namespace Acme.Http

/-- The header field that carries a nonce. -/
def replayNonce : String := "replay-nonce"

/-- The type of signed requests. -/
def joseJson : String := "application/jose+json"

/-- The type of problem documents. -/
def problemJson : String := "application/problem+json"

structure Response where
  status : Status
  headers : Headers
  body : Bytes
  deriving DecidableEq, Repr

namespace Response

/-- An answer without header and body. -/
def ofCode (code : Nat) : Response := { status := .ofCode code, headers := [], body := [] }

/-- The answer with one more header field. -/
def withHeader (r : Response) (name value : String) : Response :=
  { r with headers := r.headers.add name value }

def withBody (r : Response) (body : Bytes) : Response := { r with body }

/-- The answer with a JSON text as its body, and its type in the header. -/
def withJson (r : Response) (value : Json) : Response :=
  (r.withHeader "content-type" "application/json").withBody (Bytes.ofText value.text)

/-- A header field that is not empty. -/
def nonEmpty? (r : Response) (name : String) : Option String :=
  (r.headers.get? name).filter (!·.isEmpty)

/-- The nonce that the answer brings. -/
def nonce? (r : Response) : Option String := r.nonEmpty? replayNonce

/-- The location that the answer names. -/
def location? (r : Response) : Option String := r.nonEmpty? "location"

def text (r : Response) : String := Text.lossy r.body

def node? (r : Response) : Option Json.Node := Json.Node.read r.body

/-- The problem document in the body. Some servers do not say that the body is one; it counts as
one if it has a type. -/
def problem? (r : Response) : Option Problem := do
  let problem ← Problem.ofNode? (← r.node?)
  let declared := ((r.headers.get? "content-type").map (·.startsWith problemJson)).getD false
  if declared || !problem.type.isEmpty then some problem else none

end Response

end Acme.Http
