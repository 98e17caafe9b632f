import Acme.Key.Ec
import Acme.Proofs.Crypto.P256
import Acme.Proofs.Der

/-!
# Keys on P-256 are read as they were written

Octets tell the secret number of a key, its public key and its layout, as long as the secret number has
room in 32 octets (`key_of_encode`). They do not tell more: a key has a layout for itself and one for
blocks, and only that in which it was written is read (`EcKey.told`). A public key at infinity is read as
one that was read, so that a key with it can be written by itself once, and not again.
-/

namespace Acme

open Der

/-! ### The curve -/

namespace Curve

/-- The value that gives P-256. -/
def item : CurveForm → Item
  | .named => ⟨Tag.oid, oidContent RegisteredCurve.p256.oid⟩
  | .described withSeed =>
    ⟨Tag.sequence, [Der.nat 1,
      Der.sequence [Der.oid primeField, Der.nat P256.p],
      Der.sequence ([Der.octetString (P256.fieldBytes P256.a),
          Der.octetString (P256.fieldBytes P256.b)]
        ++ if withSeed then [Der.bitString seed] else []),
      Der.octetString (P256.generator.bytes .uncompressed), Der.nat P256.n, Der.nat 1].flatten⟩

theorem bytes_item (form : CurveForm) : (item form).bytes = p256Bytes form := by
  cases form <;> rfl

/-- Both ways of giving the curve are understood. -/
theorem ofItem?_item (form : CurveForm) : ofItem? (item form) = some (.p256 form) := by
  rcases form with _ | _ | _ <;> decide +kernel

theorem length_p256Bytes_le (form : CurveForm) : (p256Bytes form).length ≤ 256 := by
  rcases form with _ | _ | _ <;> decide +kernel

end Curve

namespace EcKey

/-- The key that octets tell which were written in a layout. -/
def told (k : EcKey) (l : EcLayout) : EcKey :=
  match k.publicPart with
  | .derived => { k with layout := { l with point := .uncompressed }, fromBlock := false }
  | .point _ => { k with layout := l, fromBlock := false }
  | .infinity _ =>
    { k with publicPart := .infinity true, layout := { l with point := .uncompressed },
             fromBlock := false }

/-- The key as its own octets tell it. -/
def settled (k : EcKey) : EcKey := k.told k.ownLayout

/-- The key as its octets inside a block tell it. -/
def boxed (k : EcKey) : EcKey := k.told k.layout

variable (k : EcKey) (l : EcLayout)

@[simp] theorem told_secret : (k.told l).secret = k.secret := by
  unfold told
  split <;> rfl

theorem told_publicKey : (k.told l).publicKey = k.publicKey := by
  unfold told publicKey
  cases k.publicPart <;> rfl

/-- A key that was read is one that can be used, unless its public key is the point at infinity. -/
theorem told_isUsable_iff :
    (k.told l).isUsable ↔ k.secret < Bytes.capacity 32 ∧ ∀ wasRead, k.publicPart ≠ .infinity wasRead := by
  unfold told isUsable hasPointForm
  cases k.publicPart <;> simp

theorem isUsable_iff :
    k.isUsable ↔ k.secret < Bytes.capacity 32 ∧ k.publicPart ≠ .infinity true := by
  simp [isUsable, hasPointForm]

/-! ### Writing -/

theorem publicBytes_of_point {q : P256.CurvePoint} (h : k.publicPart = .point q)
    (form : P256.PointForm) : k.publicBytes form = q.val.bytes form := by
  simp [publicBytes, publicKey, h]

theorem publicBytes_of_infinity {wasRead : Bool} (h : k.publicPart = .infinity wasRead)
    (form : P256.PointForm) : k.publicBytes form = P256.infinityBytes := by
  simp [publicBytes, publicKey, h]

/-- The values of a key that is written in a layout, with its curve or without it. -/
def items (withCurve : Bool) : List Item :=
  [⟨Tag.integer, intContent l.version.toInt⟩, ⟨Tag.octetString, Bytes.ofNatWidth 32 k.secret⟩]
  ++ (if withCurve then [⟨Tag.contextOuter 0, (Curve.item l.curve).bytes⟩] else [])
  ++ if k.publicPart = .derived then []
    else
      [⟨Tag.contextOuter 1, (⟨Tag.bitString, 0 :: k.publicBytes l.point⟩ : Item).bytes⟩]

theorem encode_eq (withCurve : Bool) :
    k.encode l withCurve = Der.encode Tag.sequence ((k.items l withCurve).flatMap Item.bytes) := by
  rw [encode, items, Curve.bytes_item]
  by_cases hderived : k.publicPart = .derived
  · rw [if_pos hderived, if_pos hderived]
    cases withCurve <;> rfl
  · rw [if_neg hderived, if_neg hderived]
    cases withCurve <;> rfl

theorem length_publicBytes_le (form : P256.PointForm) : (k.publicBytes form).length ≤ 65 := by
  unfold publicBytes
  split
  · cases form <;> simp [P256.Point.bytes, P256.length_fieldBytes]
  · decide

/-- A key is short. -/
theorem length_items_le (withCurve : Bool) :
    ((k.items l withCurve).flatMap Item.bytes).length ≤ 2000 := by
  have hlimit : 2000 < Bytes.capacity 127 := by decide +kernel
  have hversion := length_intContent_le l.version
  have hcurve := Curve.length_p256Bytes_le l.curve
  have hpoint := k.length_publicBytes_le l.point
  have hsecret := Bytes.length_ofNatWidth 32 k.secret
  -- a value has at most 129 octets in front of its content
  have hshort (tag : Tag) {content : Bytes} {n : Nat} (hn : n < 2000) (hle : content.length ≤ n) :
      (Der.encode tag content).length ≤ n + 129 := by
    have hroom : (Der.encode tag content).length ≤ content.length + 129 :=
      length_encode_le tag (by omega)
    omega
  have hfirst := hshort Tag.integer (by decide) hversion
  have hsecond := hshort Tag.octetString (by decide) (Nat.le_of_eq hsecret)
  have hthird := hshort (Tag.contextOuter 0) (by decide) hcurve
  have hbits : (Der.encode Tag.bitString (0 :: k.publicBytes l.point)).length ≤ 66 + 129 :=
    hshort Tag.bitString (by decide) (Nat.succ_le_succ hpoint)
  have hfourth := hshort (Tag.contextOuter 1) (by decide) hbits
  rw [items, Curve.bytes_item]
  by_cases hderived : k.publicPart = .derived <;> cases withCurve <;>
  · simp only [Item.bytes, List.flatMap_append, List.flatMap_cons, List.flatMap_nil,
      List.length_append, List.append_nil, if_true, if_false, Bool.false_eq_true, hderived]
    omega

/-- So its length can be written. -/
theorem length_items_lt (withCurve : Bool) :
    ((k.items l withCurve).flatMap Item.bytes).length < Bytes.capacity 127 :=
  Nat.lt_of_le_of_lt (k.length_items_le l withCurve) (by decide +kernel)

/-! ### Reading what was written -/

/-- What the octets of a key say. -/
theorem fields?_encode (withCurve : Bool) :
    fields? (k.encode l withCurve) = some {
      version := l.version
      secret := Bytes.ofNatWidth 32 k.secret
      curve := if withCurve then some (.p256 l.curve) else none
      publicKey := if k.publicPart = .derived then none else some (k.publicBytes l.point) } := by
  -- every part is short enough for its length to be written
  have hlimit : 256 < Bytes.capacity 127 := by decide +kernel
  have hversion := version?_intContent l.version
  have hcurve : (⟨Tag.contextOuter 0, (Curve.item l.curve).bytes⟩ : Item).explicit? 0
      = some (Curve.item l.curve) := by
    refine explicit?_bytes 0 ?_
    rw [Curve.bytes_item]
    exact Nat.lt_of_le_of_lt (Curve.length_p256Bytes_le _) hlimit
  have hpublic : (⟨Tag.contextOuter 1,
        (⟨Tag.bitString, 0 :: k.publicBytes l.point⟩ : Item).bytes⟩ : Item).explicit? 1
      = some ⟨Tag.bitString, 0 :: k.publicBytes l.point⟩ := by
    have hpoint := k.length_publicBytes_le l.point
    refine explicit?_bytes 1 (Nat.lt_of_le_of_lt (length_encode_le _ ?_) ?_) <;>
    · rw [List.length_cons]
      omega
  have htags : Tag.contextOuter 1 ≠ Tag.contextOuter 0 := by decide
  rw [fields?, encode_eq, leadingSequence?_encode (k.length_items_lt l withCurve), items]
  by_cases hderived : k.publicPart = .derived <;> cases withCurve <;>
    simp [optional?, hversion, hcurve, hpublic, htags, hderived, Curve.ofItem?_item]

/-- The octets of a key are read as the key that they tell, for which its curve has to be known. -/
theorem key_of_encode {k : EcKey} (hsecret : k.secret < Bytes.capacity 32) (l : EcLayout)
    (withCurve : Bool) :
    ∃ f, fields? (k.encode l withCurve) = some f
      ∧ f.curve = (if withCurve then some (.p256 l.curve) else none)
      ∧ f.key l.curve = .ok (k.told l) := by
  refine ⟨_, k.fields?_encode l withCurve, rfl, ?_⟩
  -- the secret number has room in 32 octets, so none of it is cut off
  have hnumber : Bytes.toNat (Bytes.ofNatWidth 32 k.secret) = k.secret := by
    rw [Bytes.toNat_ofNatWidth]
    exact Nat.mod_eq_of_lt hsecret
  unfold Fields.key told
  dsimp only
  rw [hnumber]
  cases hpart : k.publicPart with
  | derived => rfl
  | point q =>
    have hread : publicPart? (k.publicBytes l.point) = some (.point q, l.point) := by
      rw [publicBytes_of_point k hpart, publicPart?, if_neg (P256.bytes_ne_infinityBytes q _),
        P256.point?_bytes_form]
      rfl
    simp [hread]
  | infinity wasRead =>
    have hread : publicPart? (k.publicBytes l.point) = some (.infinity true, .uncompressed) := by
      rw [publicBytes_of_infinity k hpart]
      rfl
    simp [hread]

end EcKey

end Acme
