import Acme.Connection.Directory

/-!
# Nonces

Every signed request carries a nonce, a value from the server that is good for one request. A
connection holds the value for the next request. Values come from the server's resource for new
nonces, and with the answers to other requests. A value that is the same as the one held is refused.

`consume` hands out the value that is held and at once fetches the one after it, so it needs a
value first if none is held.
-/

namespace Acme

/-- Why no nonce can be had. -/
inductive NonceError
  | transport (cause : Http.TransportError)
  | directory (cause : DirectoryError)
  /-- The directory does not say where to get one. -/
  | noEndpoint
  | unexpectedStatus (status : Http.Status)
  /-- The answer brings none. -/
  | missing
  /-- The answer brings the one that is held. -/
  | duplicate (nonce : String)
  /-- All values of a given sequence are used up. -/
  | exhausted
  deriving DecidableEq, Repr

def NonceError.message? : NonceError → Option String
  | .transport cause => some ("Failed to make request: " ++ cause.message)
  | .directory cause => cause.message?.map ("Directory error: " ++ ·)
  | .noEndpoint => some "Directory has no newNonce endpoint"
  | .unexpectedStatus status => some ("Unexpected newNonce status: " ++ status.text)
  | .missing => some "No Replay-Nonce header found in response"
  | .duplicate nonce => some ("Server reused nonce " ++ nonce)
  | .exhausted => some "Nonce source exhausted"

namespace Connection

/-- Holds a new value, which must not be the one that is held. -/
def hold (nonce : String) : Exchange NonceError Unit := do
  if (← get).nonce = nonce then throw (.duplicate nonce)
  modify fun c => { c with nonce }

/-- Takes over the value that an answer brings, if it brings one. -/
def absorb (r : Http.Response) : Exchange NonceError Unit :=
  match r.nonce? with
  | some nonce => hold nonce
  | none => pure ()

/-- Fetches a new value from a URL. -/
def requestNonce (url : String) : Exchange NonceError Unit := do
  let r ← (send (.head url)).adapt .transport
  if r.status ≠ .ok ∧ r.status ≠ .noContent then throw (.unexpectedStatus r.status)
  let some nonce := r.nonce? | throw .missing
  hold nonce

/-- Fetches a new value from where the directory says. -/
def refreshNonce : Exchange NonceError Unit := do
  match ← (resolve Endpoint.newNonce.name).adapt .directory with
  | some url => requestNonce url
  | none => throw .noEndpoint

/-- Hands out a value and fetches the next one. -/
def consume : Exchange NonceError String := do
  if (← get).nonce = "" then refreshNonce
  let nonce := (← get).nonce
  refreshNonce
  return nonce

end Connection

/-! ### Given values -/

/-- Nonces that are given in advance: a sequence, then one value for ever if there is one, and how
often a value was asked for. -/
structure NonceScript where
  values : List String
  fixed : Option String
  calls : Nat
  deriving DecidableEq, Repr

namespace NonceScript

/-- The values of a list, one after another. -/
def sequence (values : List String) : NonceScript := ⟨values, none, 0⟩

/-- The same value again and again. -/
def always (value : String) : NonceScript := ⟨[], some value, 0⟩

/-- Hands out the next value. -/
def consume (s : NonceScript) : Except NonceError String × NonceScript :=
  let calls := s.calls + 1
  match s.values, s.fixed with
  | value :: values, _ => (.ok value, { s with values, calls })
  | [], some value => (.ok value, { s with calls })
  | [], none => (.error .exhausted, { s with calls })

end NonceScript

end Acme
