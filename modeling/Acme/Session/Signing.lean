import Acme.Session.Basic

/-!
# Signed requests

Signing in a session fills in what the options leave open: the key and the identifier of the active
account, and a nonce from the session's connection. What the options say is never overridden.

A signed request is a POST of a signed message. Every answer may bring the next nonce.
-/

namespace Acme.Session

/-! ### Signing -/

/-- Fills in what options leave open from the active account. -/
def fillDefaults (t : AccountTable) (o : SignOptions) : SignOptions :=
  match t.active? with
  | none => o
  | some a =>
    let needsId := !o.embedKey && o.keyId?.isNone
    { o with
      signer := o.signer.or (some a.signer)
      keyId := if needsId && a.isRegistered then some a.id else o.keyId }

/-- A nonce: the next one that is given in advance, if any are, and otherwise the connection's. -/
def drawNonce : OperationOn SignOptions String := do
  match (← get).nonces with
  | none => (Operation.exchange (.sign <| .nonce ·) Connection.consume).on
  | some script =>
    let (r, script) := script.consume
    modify fun o => { o with nonces := some script }
    match r with
    | .ok nonce => return nonce
    | .error e => throw (.sign (.nonce e))

def sign (url : String) (payload : Bytes) : OperationOn SignOptions SignedJws := do
  let s : Session ← getThe Session
  match (fillDefaults s.table (← getThe SignOptions)).plan true with
  | .error e => throw (.sign e)
  | .ok plan =>
    let nonce ← drawNonce
    (Operation.ofExcept .sign (plan.sign (some nonce) url payload)).on

/-! ### Requests -/

/-- Takes over the nonce that an answer brings. -/
def absorb (r : Http.Response) : Operation Unit := Operation.exchange .nonce (Connection.absorb r)

/-- Sends a request and takes over the nonce that the answer brings. -/
def send (request : Http.Request) : Operation Http.Response := do
  let r ← Operation.exchange .transport (Connection.send request)
  absorb r
  return r

/-- Signs a payload and sends it to a URL. -/
def post (url : String) (payload : Bytes) : OperationOn SignOptions Http.Response := do
  let signed ← sign url payload
  (send (.post url Http.joseJson signed.serialized)).on

/-- Options that say nothing. -/
def noOptions : SignOptions := { embedKey := false, keyId := none, signer := none, nonces := none }

def embedding (k : KeyPair) : SignOptions := { noOptions with embedKey := true, signer := some k }

/-- Sends a payload that the active account signs. -/
def postDefault (url : String) (payload : Bytes) : Operation Http.Response :=
  (post url payload).given noOptions

/-- Fetches a resource with a signed request, whose payload is empty. -/
def postAsGet (url : String) : Operation Http.Response := postDefault url []

/-- Fetches a resource with a request that nobody signs. -/
def getAnonymously (url : String) : Operation Http.Response := send (.get url)

/-- An answer that has to have a status. -/
def expect (status : Http.Status) (r : Http.Response) : Operation Http.Response := do
  if r.status = status then return r
  throw (.unexpectedStatus status r.status r.problem? r.text)

/-- Fetches a resource in the way that the configuration says. -/
def fetch (url : String) : Operation Http.Response := do
  let r ← if (← get).config.postAsGet then postAsGet url else getAnonymously url
  expect .ok r

/-- The URL that the directory has for a name. -/
def endpoint (name : String) : Operation String := do
  match ← Operation.exchange .directory (Connection.resolve name) with
  | some url => return url
  | none => throw (.noEndpoint name)

/-- Fetches a new nonce. -/
def refreshNonce : Operation Unit := Operation.exchange .nonce Connection.refreshNonce

def payloadBytes (p : Payload) : Operation Bytes := Operation.ofExcept .payload p.toBytes

end Acme.Session
