import Acme.Crypto.Curves
import Acme.Crypto.Ecdsa
import Acme.Key.Algorithm

/-!
# Private keys on elliptic curves

A private key in the form of RFC 5915: a version, the secret number, the curve and, in most cases,
the public key. A key that comes without its public key gets it from the secret number, and is
written without it again.

There is some freedom in how a key is written (`EcLayout`): the version, the form of points, and
whether the curve is named or described by its numbers. A key read by itself keeps its layout. A
key read from a block keeps it inside blocks only; by itself it is written in the plain layout.

The secret number and the public key are not compared, and neither has to be of use: a secret number
may be larger than the order of the group, and the public key may be the point at infinity. Keys with
more than there is room for cannot be written (`EcKey.isUsable`).
-/

namespace Acme

/-- How the curve is given. -/
inductive CurveForm
  /-- By its object identifier. -/
  | named
  /-- By its numbers, and possibly the seed that they were made from. -/
  | described (withSeed : Bool)
  deriving DecidableEq, Repr

/-- How a key is written. -/
structure EcLayout where
  version : Int32
  curve : CurveForm
  point : P256.PointForm
  deriving DecidableEq, Repr

namespace EcLayout

def plain : EcLayout := ⟨1, .named, .uncompressed⟩

/-- The usual layout for a way of giving the curve; a described curve has its seed. -/
def plainFor : CurveForm → EcLayout
  | .named => plain
  | .described _ => { plain with curve := .described true }

end EcLayout

/-- Where the public key of a key comes from. -/
inductive PublicPart
  /-- It belongs to the secret number and is not written. -/
  | derived
  /-- It is written along. -/
  | point (q : P256.CurvePoint)
  /-- It is the point at infinity, written along. A key that was read with it has no form of points,
  so that it can neither be written nor sign. -/
  | infinity (wasRead : Bool)
  deriving DecidableEq, Repr

structure EcKey where
  secret : Nat
  publicPart : PublicPart
  layout : EcLayout
  /-- Whether the key was taken out of a key block. By itself it then has the plain layout. -/
  fromBlock : Bool
  deriving DecidableEq, Repr

/-- What a key says about its curve. -/
inductive Curve
  /-- It is P-256. -/
  | p256 (form : CurveForm)
  /-- It is another curve that has a name. -/
  | registered (curve : RegisteredCurve)
  /-- It is another curve, with the equation of P-256. -/
  | unknown
  deriving DecidableEq, Repr

namespace Curve

/-- The object identifier of fields with a prime number of elements. -/
def primeField : Der.Oid := [1, 2, 840, 10045, 1, 1]

/-- The seed that the curve P-256 was made from. -/
def seed : Bytes := Bytes.ofNatWidth 20 0xc49d360886e704936a6678e1139d26b7819f7e90

def numbers (withSeed : Bool) : Bytes :=
  Der.sequence [Der.nat 1,
    Der.sequence [Der.oid primeField, Der.nat P256.p],
    Der.sequence ([Der.octetString (P256.fieldBytes P256.a), Der.octetString (P256.fieldBytes P256.b)]
      ++ if withSeed then [Der.bitString seed] else []),
    Der.octetString (P256.generator.bytes .uncompressed), Der.nat P256.n, Der.nat 1]

/-- The curve P-256, in one form or the other. -/
def p256Bytes : CurveForm → Bytes
  | .named => Der.oid RegisteredCurve.p256.oid
  | .described withSeed => numbers withSeed

/-- The curve that numbers describe. Its equation has to be that of P-256; it is another curve if
its generator or its order differs. -/
def described? : List Der.Item → Option Curve
  | _ :: field :: equation :: generator :: order :: _ => do
    match ← field.sequence?, ← equation.sequence? with
    | [type, p], a :: b :: seed =>
      let sameEquation := type.isOid primeField && (← p.nat?) == P256.p
        && Bytes.toNat (← a.octetString?) == P256.a.val
        && Bytes.toNat (← b.octetString?) == P256.b.val
      let (generator, _) ← P256.point? (← generator.octetString?)
      let order ← order.nat?
      if !sameEquation || order = 0 then none
      else if generator.val = P256.generator ∧ order = P256.n then
        some (.p256 (.described !seed.isEmpty))
      else some .unknown
    | _, _ => none
  | _ => none

/-- The curve that a value gives. -/
def ofItem? (i : Der.Item) : Option Curve :=
  match RegisteredCurve.ofItem? i with
  | some c => if c = RegisteredCurve.p256 then some (.p256 .named) else some (.registered c)
  | none => i.sequence?.bind described?

end Curve

namespace EcKey

/-! ### Reading -/

/-- What a written key says. -/
structure Fields where
  version : Int32
  secret : Bytes
  curve : Option Curve
  publicKey : Option Bytes

/-- An optional value under a tag of the surrounding type, and what follows it. -/
def optional? {α : Type} (n : UInt8) (read : Der.Item → Option α) :
    List Der.Item → Option (Option α × List Der.Item)
  | [] => some (none, [])
  | i :: rest =>
    if i.tag = Der.Tag.contextOuter n then do
      return (some (← read (← i.explicit? n)), rest)
    else some (none, i :: rest)

/-- What the key at the front of an octet string says. -/
def fields? (b : Bytes) : Option Fields := do
  match ← Der.leadingSequence? b with
  | version :: secret :: rest =>
    let version ← version.version?
    let secret ← secret.octetString?
    let (curve, rest) ← optional? 0 Curve.ofItem? rest
    let (publicKey, rest) ← optional? 1 Der.Item.bitString? rest
    if rest.isEmpty then return { version, secret, curve, publicKey } else none
  | _ => none

/-- The public key that octets give, with the form of points. -/
def publicPart? (b : Bytes) : Option (PublicPart × P256.PointForm) :=
  if b = P256.infinityBytes then some (.infinity true, .uncompressed)
  else (P256.point? b).map fun (q, form) => (.point q, form)

/-- The key on P-256 that fields describe. A key without a public key gets it from the secret
number. -/
def Fields.key (f : Fields) (form : CurveForm) : Except KeyError EcKey :=
  let made (publicPart : PublicPart) (point : P256.PointForm) : EcKey :=
    { secret := Bytes.toNat f.secret, publicPart, layout := ⟨f.version, form, point⟩,
      fromBlock := false }
  match f.publicKey with
  | none => .ok (made .derived .uncompressed)
  | some b =>
    match publicPart? b with
    | some (publicPart, point) => .ok (made publicPart point)
    | none => .error .malformed

/-! ### Writing -/

/-- The public key, unless it is the point at infinity. -/
def publicKey (k : EcKey) : Option P256.Point :=
  match k.publicPart with
  | .derived => P256.generatorMultiple? k.secret
  | .point q => some q.val
  | .infinity _ => none

/-- The octets of the public key. -/
def publicBytes (k : EcKey) (form : P256.PointForm) : Bytes :=
  match k.publicKey with
  | some q => q.bytes form
  | none => P256.infinityBytes

/-- Whether points have a form, in which the public key can be written. -/
def hasPointForm (k : EcKey) : Bool := k.publicPart != .infinity true

/-- Whether the key can be written and can sign: the secret number has no more octets than the order
of the group, and points have a form. -/
def isUsable (k : EcKey) : Bool := k.secret < Bytes.capacity 32 && k.hasPointForm

/-- The layout of the key by itself. -/
def ownLayout (k : EcKey) : EcLayout :=
  if k.fromBlock then .plainFor k.layout.curve else k.layout

/-- The octets of a key in a layout, with or without the curve. -/
def encode (k : EcKey) (l : EcLayout) (withCurve : Bool) : Bytes :=
  Der.sequence ([Der.int l.version.toInt, Der.octetString (Bytes.ofNatWidth 32 k.secret)]
    ++ (if withCurve then [Der.encode (Der.Tag.contextOuter 0) (Curve.p256Bytes l.curve)] else [])
    ++ if k.publicPart = .derived then []
    else [Der.encode (Der.Tag.contextOuter 1) (Der.bitString (k.publicBytes l.point))])

/-- The octets of the key by itself. -/
def toDer (k : EcKey) : Except KeyError Bytes :=
  if k.isUsable then .ok (k.encode k.ownLayout true) else .error .unwritable

/-- The octets of the key inside a key block, which names the curve elsewhere. -/
def toBlock (k : EcKey) : Except KeyError Bytes :=
  if k.isUsable then .ok (k.encode k.layout false) else .error .unwritable

/-- The key after it was taken out of its block, for which it has to be written once. -/
def unwrapped (k : EcKey) : Except KeyError EcKey :=
  if k.isUsable then .ok { k with fromBlock := true } else .error .malformed

/-- The key with a secret number below the order of the group, in the usual layout. -/
def ofSecret? (secret : Nat) : Option EcKey := do
  let q ← (← P256.generatorMultiple? secret).checked?
  if secret < P256.n then
    return { secret, publicPart := .point q, layout := .plain, fromBlock := false }
  else none

end EcKey

end Acme
