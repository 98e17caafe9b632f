import Acme.Jwk

/-!
# The protected header

The part of a signed message that says how it is signed and what for: the algorithm, a nonce
against replay, the URL that the message is for, and the key, either as a public key or as the
identifier of the account it belongs to.
-/

namespace Acme

/-- How a header names the key that signs. -/
inductive KeyBinding
  /-- By the public key itself. -/
  | jwk (key : Jwk)
  /-- By the URL of the account. -/
  | keyId (id : String)
  deriving DecidableEq, Repr

structure ProtectedHeader where
  alg : String
  nonce : Option String
  url : String
  jwk : Option Jwk
  kid : Option String
  deriving DecidableEq, Repr

namespace ProtectedHeader

def make (alg : String) (nonce : Option String) (url : String) : KeyBinding → ProtectedHeader
  | .jwk key => { alg, nonce, url, jwk := some key, kid := none }
  | .keyId id => { alg, nonce, url, jwk := none, kid := some id }

/-- The header as a JSON value, without the members that have no value. -/
def toJson (h : ProtectedHeader) : Json :=
  .object ([("alg", .string h.alg)] ++ Json.member? "nonce" .string h.nonce
    ++ [("url", .string h.url)] ++ Json.member? "jwk" Jwk.toJson h.jwk
    ++ Json.member? "kid" .string h.kid)

def text (h : ProtectedHeader) : String := h.toJson.text

/-- The header's text in base64, as messages carry it. -/
def encoded (h : ProtectedHeader) : String := Base64.toUrl (Bytes.ofText h.text)

def ofNode? (n : Json.Node) : Option ProtectedHeader := do
  let r ← n.record? ["alg", "nonce", "url", "jwk", "kid"]
  let alg ← r.required "alg" Json.Node.text?
  let nonce ← r.optional "nonce" Json.Node.text?
  let url ← r.required "url" Json.Node.text?
  let jwk ← r.optional "jwk" (Jwk.ofNode? (Json.Node.nestingLimit - 1))
  let kid ← r.optional "kid" Json.Node.text?
  return { alg, nonce, url, jwk, kid }

def ofBytes? (b : Bytes) : Option ProtectedHeader := (Json.Node.read b).bind ofNode?

end ProtectedHeader

end Acme
