import Acme.Connection.Nonce
import Acme.Jws.Basic
import Acme.Key.Basic
import Acme.Text.Quoted

/-!
# Signing messages

A message is signed by a key for a URL. Its header names the key in one of two ways: it embeds the
public key, or it gives the identifier of the account that the key belongs to. `SignOptions` say
which. `SignOptions.validate` checks them before anything else happens, and `SignOptions.plan`
publishes the key where it is to be embedded; only then is a nonce taken, and `SignPlan.sign` does
the rest.

`signHeader` reads back what it has written, so what it returns is what a reader will see.
-/

namespace Acme

structure SignOptions where
  /-- Whether to embed the public key. -/
  embedKey : Bool
  /-- The identifier of the account; an empty one counts as none. -/
  keyId : Option String
  signer : Option KeyPair
  /-- Nonces that are given in advance. -/
  nonces : Option NonceScript
  deriving DecidableEq, Repr

/-- Why a message is not signed. -/
inductive SignError
  /-- The options ask both for the public key and for an identifier. -/
  | embedKeyWithKeyId
  /-- The options ask for neither. -/
  | missingKeyBinding
  | missingNonceSource
  | missingSigner
  | nonce (cause : NonceError)
  | key (cause : KeyError)
  | unreadable (cause : Jws.ReadError)
  deriving DecidableEq, Repr

namespace SignError

def message? : SignError → Option String
  | embedKeyWithKeyId => some "embed_key and key_id are mutually exclusive"
  | missingKeyBinding => some "Either embed_key or a non-empty key_id is required"
  | missingNonceSource => some "No nonce source configured"
  | missingSigner => some "No signer configured"
  | nonce cause => cause.message?.map ("Protected header error: Nonce error: " ++ ·)
  | key cause => cause.message?.map ("Key error: " ++ ·)
  | unreadable cause => cause.message?

/-- Whether the options are at fault, so that nothing has happened yet. -/
def isConfig : SignError → Bool
  | embedKeyWithKeyId | missingKeyBinding | missingNonceSource | missingSigner => true
  | nonce _ | key _ | unreadable _ => false

end SignError

/-- A signed message: its octets, and what they say when they are read back. -/
structure SignedJws where
  serialized : Bytes
  parsed : ParsedJws
  deriving DecidableEq, Repr

/-- What options amount to: a key, and how the header names it. -/
structure SignPlan where
  signer : KeyPair
  binding : KeyBinding
  deriving DecidableEq, Repr

/-- How a header names a key, given the identifier of the account unless the public key is to be
embedded. -/
def KeyBinding.ofKey (signer : KeyPair) : Option String → Except SignError KeyBinding
  | some id => .ok (.keyId id)
  | none => .jwk <$> signer.jwk.mapError .key

namespace SignOptions

/-- The identifier of the account, if it is not empty. -/
def keyId? (o : SignOptions) : Option String := o.keyId.filter (!·.isEmpty)

/-- Checks the options: the two ways of naming the key exclude each other and one of them has to
be there, then a source of nonces, then a key. Gives the key, and the identifier unless the public
key is to be embedded. -/
def validate (o : SignOptions) (hasNonces : Bool) : Except SignError (KeyPair × Option String) :=
  match o.embedKey, o.keyId? with
  | true, some _ => .error .embedKeyWithKeyId
  | false, none => .error .missingKeyBinding
  | _, keyId =>
    if !hasNonces then .error .missingNonceSource
    else
      match o.signer with
      | none => .error .missingSigner
      | some signer => .ok (signer, keyId)

/-- What the options amount to if they are in order. A public key without coordinates cannot be
embedded. -/
def plan (o : SignOptions) (hasNonces : Bool) : Except SignError SignPlan := do
  let (signer, keyId) ← o.validate hasNonces
  return { signer, binding := ← KeyBinding.ofKey signer keyId }

def shown (o : SignOptions) : String :=
  let optional (text? : Option String) : String :=
    match text? with
    | some s => "Some(" ++ s ++ ")"
    | none => "None"
  let flag (b : Bool) : String := if b then "true" else "false"
  "SignOptions \x7b embed_key: " ++ flag o.embedKey
    ++ ", key_id: " ++ optional (o.keyId.map Text.quote)
    ++ ", signer: " ++ optional (o.signer.map KeyPair.shown)
    ++ ", nonce_source: " ++ flag o.nonces.isSome ++ " \x7d"

end SignOptions

/-- The header of a message for a URL, with the next of the nonces that are given in advance, or
without a nonce where none are given. -/
def ProtectedHeader.draw (alg url : String) (binding : KeyBinding) :
    ExceptT NonceError (StateM (Option NonceScript)) ProtectedHeader := do
  match ← get with
  | none => return .make alg none url binding
  | some script =>
    let (nonce, script) := script.consume
    set (some script)
    return .make alg (some (← nonce)) url binding

namespace Jws

def signHeader (signer : KeyPair) (header : ProtectedHeader) (payload : Bytes) :
    Except SignError SignedJws := do
  let encoded := header.encoded
  let encodedPayload := Base64.toUrl payload
  let signature ←
    match signer.sign (Bytes.ofText (encoded ++ "." ++ encodedPayload)) with
    | .ok b => pure b
    | .error e => throw (.key e)
  let jws : Jws :=
    { header := encoded, payload := encodedPayload, signature := Base64.toUrl signature }
  let serialized := Bytes.ofText jws.text
  match parse serialized with
  | .ok parsed => return { serialized, parsed }
  | .error e => throw (.unreadable e)

end Jws

namespace SignPlan

def sign (p : SignPlan) (nonce : Option String) (url : String) (payload : Bytes) :
    Except SignError SignedJws :=
  Jws.signHeader p.signer (.make p.signer.algorithm.signatureName nonce url p.binding) payload

end SignPlan

namespace Jws

/-- Signs the message inside another message: it embeds the public key and has no nonce. -/
def signInner (signer : KeyPair) (url : String) (payload : Bytes) :
    Except SignError SignedJws := do
  SignPlan.sign { signer, binding := ← KeyBinding.ofKey signer none } none url payload

/-- Signs a payload for a URL with nonces that are given in advance. Takes one of them, unless the
options are not in order or there is no public key to embed. -/
def sign (o : SignOptions) (url : String) (payload : Bytes) :
    Except SignError SignedJws × SignOptions :=
  match o.plan o.nonces.isSome, o.nonces with
  | .error e, _ => (.error e, o)
  | .ok _, none => (.error .missingNonceSource, o)
  | .ok plan, some script =>
    let (nonce, script) := script.consume
    (match nonce with
      | .ok nonce => plan.sign (some nonce) url payload
      | .error e => .error (.nonce e), { o with nonces := some script })

end Jws

end Acme
