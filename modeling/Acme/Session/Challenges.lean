import Acme.Session.Orders

/-!
# Operations on authorizations and challenges

Serving the proof of a challenge, asking the server to look at it, and giving up an authorization.
-/

namespace Acme.Session

/-- Asks the server to look at the proof of a challenge. -/
def respondChallenge (c : Challenge) : Operation Challenge := do
  if c.url.isEmpty then throw (.noUrl "challenge")
  let body ← payloadBytes .challenge
  replaced c (← expect .ok (← postDefault c.url body))

/-- Gives up an authorization. -/
def deactivateAuthorization (a : Authorization) : Operation Authorization := do
  if a.id.isEmpty then throw (.noUrl "authorization")
  let body ← payloadBytes .forDeactivate
  replaced a (← expect .ok (← postDefault a.id body))

/-- The key authorization of the active account for a token. -/
def keyAuthorization (token : String) : Operation String := do
  let some a := (← get).table.active? | throw .noActiveAccount
  return Challenge.keyAuthorization token (← Operation.ofExcept .key a.signer.thumbprint)

/-- The key under which a responder serves the proof of a challenge. -/
def responderKey (a : Authorization) (c : Challenge) : Operation String :=
  Operation.ofExcept .responder (Responder.key a c)

/-- Serves the proof of a challenge, and gives back the key authorization. -/
def provision (a : Authorization) (c : Challenge) : OperationOn Responder String := do
  let value ← (keyAuthorization c.token).on
  let key ← (responderKey a c).on
  modify (·.provide c.type key value)
  return value

/-- Serves the proof of a challenge no more. -/
def cleanUp (a : Authorization) (c : Challenge) : OperationOn Responder Unit := do
  let key ← (responderKey a c).on
  modify (·.withdraw c.type key)

end Acme.Session
