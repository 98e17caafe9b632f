import Acme.Session.Signing

/-!
# Operations on accounts

Registering an account, changing its contact, giving it up, and giving it another key.

A change of keys is a message inside a message: the inner one is signed with the new key and says
whose key it replaces; the outer one is signed with the old key. Only the outer one needs a nonce.
Once the server has agreed, the account and the table of keys both change to the new key.
-/

namespace Acme.Session

/-- Registers an account, which takes the session's contact if it has none. Gives back the account
as the server knows it. -/
def createAccount (a : Account) : Operation Account := do
  if a.isRegistered then throw (.alreadyCreated a.id)
  let url ← endpoint Endpoint.newAccount.name
  let config := (← get).config
  let contact := if a.contact.isEmpty then config.contact else a.contact
  let body ← payloadBytes (.forNewAccount contact)
  let r ← expect .created (← (post url body).given (embedding a.signer))
  let some location := r.location? | throw .noLocation
  return { a with id := location, contact := contact.map Payload.normalContact }

/-- Changes the contact of the active account, and gives back the account. -/
def updateAccount (contact : List String) : Operation Account := do
  let a ← activeIdentity
  let body ← payloadBytes (.forUpdateAccount contact)
  let _ ← expect .ok (← postDefault a.id body)
  let some index := (← get).table.active | throw .noActiveAccount
  modifyTable (·.modify index fun a => { a with contact := contact.map Payload.normalContact })
  let some a := (← get).table.active? | throw .noActiveAccount
  return a

/-- Gives up the active account. -/
def deactivateAccount : Operation Unit := do
  let a ← activeIdentity
  let body ← payloadBytes .forDeactivate
  let _ ← expect .ok (← postDefault a.id body)

/-- Gives the active account another key. -/
def rollover (newSigner : KeyPair) : Operation Unit := do
  let url ← endpoint Endpoint.keyChange.name
  let a ← activeIdentity
  let oldKey ← Operation.ofExcept .key a.signer.jwk
  let body ← payloadBytes (.keyChange a.id oldKey)
  let inner ← Operation.ofExcept .sign (Jws.signInner newSigner url body)
  let outer := { noOptions with keyId := some a.id, signer := some a.signer }
  let _ ← expect .ok (← (post url inner.serialized).given outer)
  let some index := (← get).table.active | throw .noActiveAccount
  modifyTable fun t =>
    (t.addKey a.id newSigner).modify index fun a => { a with signer := newSigner }

end Acme.Session
