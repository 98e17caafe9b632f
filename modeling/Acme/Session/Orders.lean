import Acme.Order
import Acme.Session.Signing

/-!
# Operations on orders

From an order to a certificate: creating the order, fetching what the server says about it, sending
the signing request and fetching the certificate; and revoking the certificate.

Once the server has created an order its URL is recorded with the account, whatever else the answer
says. Resources are replaced as a whole by the server's answers.
-/

namespace Acme.Session

variable {R : Type} [Resource R]

/-- The resource, replaced by what an answer says. -/
def replaced (r : R) (answer : Http.Response) : Operation R :=
  match Resource.replaced? r answer.body with
  | some r => return r
  | none => throw .json

/-- The resource at a URL that an answer describes. -/
def described (id : String) (answer : Http.Response) : Operation R :=
  match Resource.ofBody? id answer.body with
  | some r => return r
  | none => throw .json

/-- Creates an order for the active account. -/
def createOrder (o : Order) : Operation Order := do
  let a ← activeIdentity
  let url ← endpoint Endpoint.newOrder.name
  let body ← payloadBytes (.newOrder o.identifiers)
  let answer ← expect .created (← (post url body).given { noOptions with keyId := some a.id })
  let some location := answer.location? | throw .noLocation
  modifyTable (·.recordOrder a.id location)
  described location answer

/-- Fetches a resource again. -/
def update (r : R) : Operation R := do
  if (Resource.id r).isEmpty then throw (.noUrl "resource")
  replaced r (← fetch (Resource.id r))

/-- Fetches the authorizations of an order, in their order, up to the first that fails. -/
def fetchAuthorizations (o : Order) : Operation (List Authorization) :=
  o.authorizations.mapM fun url => do described url (← fetch url)

/-- The key for a certificate: the one that is given, or a new one. -/
def certificateKey (given : Option KeyPair) (seed : Bytes) : Operation KeyPair :=
  match given.or (KeyPair.generate? .ecdsaP256 seed) with
  | some k => return k
  | none => throw (.key .malformed)

/-- Sends the signing request of an order. Gives back the order and the key of the certificate,
which is made from a seed if none is given. -/
def finalize (o : Order) (given : Option KeyPair) (seed : Bytes) : Operation (Order × KeyPair) := do
  if o.finalize.isEmpty then throw (.noUrl "finalize")
  let k ← certificateKey given seed
  let request ← Operation.ofExcept .request (SigningRequest.forIdentifiers o.identifiers k)
  let body ← payloadBytes (.forFinalize request.toDer)
  let answer ← expect .ok (← postDefault o.finalize body)
  return (← replaced o answer, k)

/-- Fetches the certificate of an order that is valid. -/
def download (o : Order) : Operation CertificateChain := do
  if o.status ≠ .valid then throw .orderNotValid
  let some url := o.certificate | throw .orderNotValid
  let answer ← fetch url
  Operation.ofExcept .certificate (CertificateChain.ofText answer.text)

/-- Revokes a certificate. The request is signed with the certificate's key if it is given, and by
the active account otherwise. -/
def revoke (certificate : Bytes) (reason : Option UInt8) (given : Option KeyPair) :
    Operation Unit := do
  let url ← endpoint Endpoint.revokeCert.name
  let body ← payloadBytes (.forRevoke certificate reason)
  let _ ← expect .ok (← (post url body).given ((given.map embedding).getD noOptions))

end Acme.Session
