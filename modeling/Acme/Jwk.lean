import Acme.Base64
import Acme.Crypto.Sha256
import Acme.Json.Record

/-!
# Public keys as JSON

A JSON Web Key (RFC 7517) of one of the two types that the protocol uses here. The member `kty`
tells the types apart; the others are kept as text.

The thumbprint (RFC 7638) is the hash of the canonical text: the required members alone, sorted by
name. `toJson` puts `kty` first instead.
-/

namespace Acme

/-- A public key. -/
inductive Jwk
  /-- A point on an elliptic curve. -/
  | ec (crv x y : String)
  /-- An RSA modulus and exponent. -/
  | rsa (n e : String)
  deriving DecidableEq, Repr

namespace Jwk

/-- The name of the key's type. -/
def type : Jwk → String
  | ec .. => "EC"
  | rsa .. => "RSA"

/-- The key as a JSON value. -/
def toJson : Jwk → Json
  | ec crv x y =>
    .object [("kty", .string "EC"), ("crv", .string crv), ("x", .string x), ("y", .string y)]
  | rsa n e => .object [("kty", .string "RSA"), ("n", .string n), ("e", .string e)]

/-- The required members, sorted by name. -/
def canonical : Jwk → Json
  | ec crv x y =>
    .object [("crv", .string crv), ("kty", .string "EC"), ("x", .string x), ("y", .string y)]
  | rsa n e => .object [("e", .string e), ("kty", .string "RSA"), ("n", .string n)]

/-- The text that is hashed for the thumbprint. -/
def canonicalText (k : Jwk) : String := k.canonical.text

def thumbprint (k : Jwk) : String := Base64.toUrl (Sha256.hash (Bytes.ofText k.canonicalText))

/-- The member that tells the type: the only one named `kty`, or the first of those given by
place. -/
def typeNode? : Json.Node → Option Json.Node
  | .object members => do
    match (← Json.Node.named? members).filter (·.1 == "kty") with
    | [m] => some m.2
    | _ => none
  | .array (item :: _) => some item
  | _ => none

/-- Reads a key from a text in which at most `room` arrays and objects may stand inside one
another. All members have to be in order, also those that are passed over, because the type may
come last. -/
def ofNode? (room : Nat) (n : Json.Node) : Option Jwk := do
  let _ ← n.value? room
  let type ← (← typeNode? n).text?
  match type with
  | "EC" =>
    let r ← n.record? ["kty", "crv", "x", "y"]
    return .ec (← r.required "crv" Json.Node.text?) (← r.required "x" Json.Node.text?)
      (← r.required "y" Json.Node.text?)
  | "RSA" =>
    let r ← n.record? ["kty", "n", "e"]
    return .rsa (← r.required "n" Json.Node.text?) (← r.required "e" Json.Node.text?)
  | _ => none

end Jwk

end Acme
