import Acme.Jwk
import Acme.Key.Ec
import Acme.Key.Rsa
import Acme.Pem

/-!
# Keys

A private key of one of the two kinds that are supported, read from text blocks or from octets,
written again, published and used for signatures.

Reading has two steps. `PrivateKey` is any key that can be read or that a program has put together;
`PrivateKey.accepted` turns away what is not P-256 or RSA with a modulus of 256 octets. `KeyPair` is
what remains: all keys that a program can have, and no others. Not all of them can be written,
published or used.

A key block (RFC 5208) wraps a key together with the name of its kind. In a text, the first block
from which a key can be read counts; what else it is labelled decides which forms are tried.
-/

namespace Acme

/-- A private key of any kind that can be read. -/
inductive PrivateKey
  /-- A key on P-256. -/
  | ec (key : EcKey)
  /-- A key on another curve, which may have no name. -/
  | otherCurve (curve : Option RegisteredCurve)
  | rsa (key : RsaKey)
  /-- A key of a kind that is known only by the number under which it is registered. -/
  | other (number : Nat)
  deriving DecidableEq, Repr

/-- How many octets the modulus of an RSA key has to have. -/
def PrivateKey.modulusSize : Nat := 256

/-- A private key of a kind that is supported. -/
inductive KeyPair
  | ec (key : EcKey)
  | rsa (key : RsaKey) (size : key.numbers.size = PrivateKey.modulusSize)
  deriving DecidableEq, Repr

/-! ### Reading -/

namespace PrivateKey

/-- The object identifier of keys on elliptic curves. -/
def ecOid : Der.Oid := [1, 2, 840, 10045, 2, 1]

/-- The object identifier of RSA keys. -/
def rsaOid : Der.Oid := [1, 2, 840, 113549, 1, 1, 1]

/-- The number of the one curve whose keys count as a kind of their own. -/
def ownKindCurve : Nat := 1172

/-- A key with these fields, on a curve given elsewhere unless the fields give one. -/
def ofFields (f : EcKey.Fields) (outer : Option Curve) : Except KeyError PrivateKey :=
  match f.curve.or outer with
  | some (.p256 form) => .ec <$> f.key form
  | some (.registered c) =>
    .ok (if c.number = ownKindCurve then .other c.number else .otherCurve (some c))
  | some .unknown => .ok (.otherCurve none)
  | none => .error .malformed

/-- The key on a curve at the front of an octet string. -/
def ofEcDer (outer : Option Curve) (b : Bytes) : Except KeyError PrivateKey :=
  match EcKey.fields? b with
  | some f => ofFields f outer
  | none => .error .malformed

/-- The RSA key at the front of an octet string. -/
def ofRsaDer (b : Bytes) : Except KeyError PrivateKey :=
  match RsaKey.ofDer? b with
  | some k => .ok (.rsa k)
  | none => .error .malformed

/-- Other kinds of keys: their object identifiers, their numbers, and whether octets can be such a
key. -/
def otherKinds : List (Der.Oid × Nat × (Bytes → Bool)) :=
  let fixed (length : Nat) (b : Bytes) : Bool :=
    ((Der.next? b).bind (·.1.octetString?)).any (·.length == length)
  let number (b : Bytes) : Bool := ((Der.next? b).bind (·.1.nat?)).isSome
  [([1, 2, 840, 113549, 1, 1, 10], 912, fun b => (RsaKey.ofDer? b).isSome),
    ([1, 3, 101, 110], 1034, fixed 32), ([1, 3, 101, 111], 1035, fixed 56),
    ([1, 3, 101, 112], 1087, fixed 32), ([1, 3, 101, 113], 1088, fixed 57),
    ([1, 2, 840, 10040, 4, 1], 116, number), ([1, 2, 840, 113549, 1, 3, 1], 28, number),
    ([1, 2, 840, 10046, 2, 1], 920, number)]

/-- The key that the content of a key block is, given the name of its kind. -/
def ofKind (kind : Der.Item) (parameters : List Der.Item) (b : Bytes) :
    Except KeyError PrivateKey :=
  if kind.isOid ecOid then
    match parameters with
    | [i] =>
      match Curve.ofItem? i with
      | some c => ofEcDer (some c) b
      | none => .error .malformed
    | _ => .error .malformed
  else if kind.isOid rsaOid then ofRsaDer b
  else
    match otherKinds.find? fun other => kind.isOid other.1 with
    | some (_, number, fits) => if fits b then .ok (.other number) else .error .malformed
    | none => .error .malformed

/-- The attributes that may follow in a key block. -/
def attributes? : List Der.Item → Bool
  | [] => true
  | [i] => i.tag == Der.Tag.contextOuter 0
  | _ => false

/-- The key in the key block at the front of an octet string. -/
def ofBlock (b : Bytes) : Except KeyError PrivateKey :=
  match Der.leadingSequence? b with
  | some (version :: algorithm :: key :: rest) =>
    match version.int?, algorithm.sequence?, key.octetString?, attributes? rest with
    | some _, some (kind :: parameters), some key, true =>
      if parameters.length ≤ 1 then ofKind kind parameters key else .error .malformed
    | _, _, _, _ => .error .malformed
  | _ => .error .malformed

/-- The first result that is not that there is no key. -/
def first : List (Except KeyError PrivateKey) → Except KeyError PrivateKey
  | [] => .error .malformed
  | .error .malformed :: rest => first rest
  | r :: _ => r

def isEc : PrivateKey → Bool
  | ec _ | otherCurve _ => true
  | rsa _ | other _ => false

def isRsa : PrivateKey → Bool
  | rsa _ => true
  | _ => false

def require (fits : PrivateKey → Bool) (k : PrivateKey) : Except KeyError PrivateKey :=
  if fits k then .ok k else .error .malformed

/-- The longest header of a block that is passed over. -/
def headerLimit : Nat := 10

/-- The key that a text block holds. The label says what forms it can be in. -/
def ofPemBlock (b : Pem.Block) : Except KeyError PrivateKey :=
  let labelled (names : List String) : Bool := names.any fun name => b.label == Bytes.ofText name
  if headerLimit < b.header.length then .error .malformed
  else if labelled ["PRIVATE KEY", "ENCRYPTED PRIVATE KEY"] then ofBlock b.content
  else if labelled ["EC PRIVATE KEY", "EC PARAMETERS"] then
    first [ofEcDer none b.content, ofBlock b.content >>= require isEc]
  else if labelled ["RSA PRIVATE KEY", "RSA PUBLIC KEY"] then
    first [ofRsaDer b.content, ofBlock b.content >>= require isRsa]
  else .error .malformed

/-- The key after it was taken out of its block. -/
def unwrapped : PrivateKey → Except KeyError PrivateKey
  | ec k => .ec <$> k.unwrapped
  | rsa k => .ok (.rsa k.unwrapped)
  | k => .ok k

/-- The first key in a text. -/
def ofPem (b : Bytes) : Except KeyError PrivateKey :=
  first ((Pem.blocks b).filterMap fun block => block.map ofPemBlock) >>= unwrapped

/-- The key at the front of an octet string, by itself. -/
def ofDer (alg : KeyAlgorithm) (b : Bytes) : Except KeyError PrivateKey :=
  match alg with
  | .ecdsaP256 => ofEcDer none b
  | .rsa2048 => ofRsaDer b

/-- The text for a curve that is not supported. -/
def curveText : Option RegisteredCurve → String
  | some c =>
    "EC curve Some(Nid \x7b nid: " ++ toString c.number ++ ", short_name: \"" ++ c.name ++ "\" \x7d)"
  | none => "EC curve None"

/-- Turns away keys of kinds that are not supported. -/
def accepted : PrivateKey → Except KeyError KeyPair
  | ec k => .ok (.ec k)
  | rsa k =>
    if size : k.numbers.size = modulusSize then .ok (.rsa k size)
    else .error (.unsupported ("RSA-" ++ toString (k.numbers.size * 8)))
  | otherCurve curve => .error (.unsupported (curveText curve))
  | other number => .error (.unsupported ("Id(" ++ toString number ++ ")"))

end PrivateKey

namespace KeyPair

def algorithm : KeyPair → KeyAlgorithm
  | ec _ => .ecdsaP256
  | rsa .. => .rsa2048

/-- Reads a key from a text. -/
def ofPem (b : Bytes) : Except KeyError KeyPair := PrivateKey.ofPem b >>= PrivateKey.accepted

/-- Reads a key of a kind from octets. It has to be of that kind. -/
def ofDer (alg : KeyAlgorithm) (b : Bytes) : Except KeyError KeyPair := do
  let k ← PrivateKey.ofDer alg b >>= PrivateKey.accepted
  if k.algorithm = alg then return k
  throw (.mismatch alg k.algorithm)

/-! ### Writing -/

/-- The octets of the key by itself. -/
def toDer : KeyPair → Except KeyError Bytes
  | ec k => k.toDer
  | rsa k _ => k.toDer

/-- What a key block says about the kind of key. -/
def kind : KeyPair → Bytes
  | ec k => Der.sequence [Der.oid PrivateKey.ecOid, Curve.p256Bytes k.layout.curve]
  | rsa .. => Der.sequence [Der.oid PrivateKey.rsaOid, Der.null]

/-- The octets of the key inside a key block. -/
def blockContent : KeyPair → Except KeyError Bytes
  | ec k => k.toBlock
  | rsa k _ => k.toBlock

def toBlock (k : KeyPair) : Except KeyError Bytes := do
  return Der.sequence [Der.int 0, k.kind, Der.octetString (← k.blockContent)]

def toPem (k : KeyPair) : Except KeyError String := Pem.text "PRIVATE KEY" <$> k.toBlock

/-- The text that shows a key without giving it away. -/
def shown (k : KeyPair) : String := "KeyPair \x7b alg: " ++ k.algorithm.name ++ ", .. \x7d"

/-! ### The public key -/

/-- The public key in JSON. Coordinates keep their leading zeros, numbers have none. -/
def jwk : KeyPair → Except KeyError Jwk
  | ec k =>
    match k.publicKey with
    | some q =>
      .ok (.ec "P-256" (Base64.toUrl (P256.fieldBytes q.x)) (Base64.toUrl (P256.fieldBytes q.y)))
    | none => .error .noCoordinates
  | rsa k _ =>
    .ok (.rsa (Base64.toUrl (Bytes.ofNat k.numbers.modulus))
      (Base64.toUrl (Bytes.ofNat k.numbers.publicExponent)))

def thumbprint (k : KeyPair) : Except KeyError String := Jwk.thumbprint <$> k.jwk

/-- The octets of the public key by itself. -/
def publicBits : KeyPair → Except KeyError Bytes
  | ec k => if k.hasPointForm then .ok (k.publicBytes k.layout.point) else .error .unwritable
  | rsa k _ =>
    .ok (Der.sequence [Der.nat k.numbers.modulus, Der.nat k.numbers.publicExponent])

/-- The public key as certificates and signing requests contain it. -/
def publicInfo (k : KeyPair) : Except KeyError Bytes := do
  return Der.sequence [k.kind, Der.bitString (← k.publicBits)]

/-! ### Signatures -/

/-- An elliptic signature as it stands in certificates, if one was found. -/
def certificateForm : Option Ecdsa.Signature → Except KeyError Bytes
  | some g => .ok g.toDer
  | none => .error .signing

/-- A signature as it stands in certificates and signing requests. -/
def signDer (k : KeyPair) (message : Bytes) : Except KeyError Bytes :=
  match k with
  | ec k =>
    if k.isUsable then certificateForm (Ecdsa.sign? k.secret message) else .error .unusable
  | rsa k _ => .ok (k.numbers.sign message)

/-- The form in messages of what stands in certificates: of an elliptic signature the two numbers side by
side, each with its leading zeros; an RSA signature as it is. -/
def messageForm (alg : KeyAlgorithm) (signature : Bytes) : Except KeyError Bytes :=
  match alg with
  | .ecdsaP256 =>
    match (Ecdsa.Signature.ofDer? signature).bind Ecdsa.Signature.toBytes? with
    | some b => .ok b
    | none => .error .encoding
  | .rsa2048 => .ok signature

/-- A signature as it stands in messages, from whatever signs as certificates have it. -/
def signBy (primitive : KeyPair → Bytes → Except KeyError Bytes) (k : KeyPair) (message : Bytes) :
    Except KeyError Bytes :=
  primitive k message >>= messageForm k.algorithm

/-- A signature as it stands in messages. -/
def sign (k : KeyPair) (message : Bytes) : Except KeyError Bytes := signBy signDer k message

/-- Whether a signature from a message fits. -/
def verify (k : KeyPair) (message signature : Bytes) : Bool :=
  match k with
  | ec k => (Ecdsa.Signature.ofBytes? signature).any (Ecdsa.verify k.publicKey message)
  | rsa k _ => k.numbers.verify message signature

/-- Whether a signature from a certificate or signing request fits. -/
def verifyDer (k : KeyPair) (message signature : Bytes) : Bool :=
  match k with
  | ec k => (Ecdsa.Signature.ofDer? signature).any (Ecdsa.verify k.publicKey message)
  | rsa k _ => k.numbers.verify message signature

end KeyPair

end Acme
