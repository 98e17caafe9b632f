import Acme.Proofs.Key.Reading

/-!
# Published keys

What certificates and signing requests contain of a key (`KeyPair.publicInfo`) tells its public key:
`PublicKey.ofInfo?` reads it (RFC 5280, section 4.1.2.7), and for every key that has such a description
it reads the key's own (`ofInfo?_publicInfo`). The form in which points and the curve are written, which
a key keeps from the block that it came in, does not matter.
-/

namespace Acme

open Der

/-- The public part of a key. -/
inductive PublicKey
  /-- A point, unless it is the one at infinity. -/
  | ec (point : Option P256.Point)
  | rsa (modulus exponent : Nat)
  deriving DecidableEq, Repr

def KeyPair.publicKey : KeyPair → PublicKey
  | ec k => .ec k.publicKey
  | rsa k _ => .rsa k.numbers.modulus k.numbers.publicExponent

namespace PublicKey

/-! ### Reading -/

/-- The numbers of an RSA key. -/
def ofRsaBits? (b : Bytes) : Option PublicKey := do
  match ← leadingSequence? b with
  | [modulus, exponent] => return .rsa (← modulus.nat?) (← exponent.nat?)
  | _ => none

/-- A point of P-256, however the curve is given. -/
def ofPointBits? (curve : Item) (b : Bytes) : Option PublicKey :=
  match Curve.ofItem? curve with
  | some (.p256 _) =>
    if b = P256.infinityBytes then some (.ec none)
    else (P256.point? b).map fun (q, _) => .ec (some q.val)
  | _ => none

/-- The public key that octets describe. -/
def ofInfo? (b : Bytes) : Option PublicKey := do
  match ← leadingSequence? b with
  | [algorithm, bits] =>
    let key ← bits.bitString?
    match ← algorithm.sequence? with
    | [kind, parameters] =>
      if kind.isOid PrivateKey.ecOid then ofPointBits? parameters key
      else if kind.isOid PrivateKey.rsaOid then ofRsaBits? key
      else none
    | _ => none
  | _ => none

/-! ### What is written -/

/-- The value that names a kind of key. -/
def kindItem (oid : Oid) (parameters : Item) : Item :=
  ⟨Tag.sequence, [⟨Tag.oid, oidContent oid⟩, parameters].flatMap Item.bytes⟩

/-- The values of a kind of key and of the key itself. -/
def infoItems (oid : Oid) (parameters : Item) (key : Bytes) : List Item :=
  [kindItem oid parameters, ⟨Tag.bitString, 0 :: key⟩]

/-- The value of the numbers of an RSA key. -/
def numbersItem (modulus exponent : Nat) : Item :=
  ⟨Tag.sequence, [⟨Tag.integer, natContent modulus⟩, ⟨Tag.integer, natContent exponent⟩].flatMap
    Item.bytes⟩

/-- The values of which what is published of a key consists. -/
def itemsOf : KeyPair → List Item
  | .ec k => infoItems PrivateKey.ecOid (Curve.item k.layout.curve) (k.publicBytes k.layout.point)
  | .rsa k _ => infoItems PrivateKey.rsaOid ⟨Tag.null, []⟩
      (numbersItem k.numbers.modulus k.numbers.publicExponent).bytes

/-- The value in which a key is published. -/
def item (k : KeyPair) : Item := ⟨Tag.sequence, (itemsOf k).flatMap Item.bytes⟩

theorem bytes_item {k : KeyPair} {b : Bytes} (h : k.publicInfo = .ok b) : (item k).bytes = b := by
  cases k with
  | ec k =>
    have hbytes : Der.sequence [(KeyPair.ec k).kind, Der.bitString (k.publicBytes k.layout.point)]
        = (item (.ec k)).bytes := by
      show _ = Der.encode Tag.sequence ((infoItems _ _ _).flatMap Item.bytes)
      simp only [infoItems, kindItem, List.flatMap_cons, List.flatMap_nil, Curve.bytes_item]
      rfl
    unfold KeyPair.publicInfo KeyPair.publicBits at h
    dsimp only at h
    split at h
    · cases h
      exact hbytes.symm
    · cases h
  | rsa k size =>
    cases h
    rfl

/-! ### Reading what was written -/

/-- A kind and a key are read as they were written. -/
theorem ofInfo?_infoItems {oid : Oid} {parameters : Item} {key : Bytes}
    (h : ((infoItems oid parameters key).flatMap Item.bytes).length < Bytes.capacity 127) :
    ofInfo? (Der.encode Tag.sequence ((infoItems oid parameters key).flatMap Item.bytes))
      = if (⟨Tag.oid, oidContent oid⟩ : Item).isOid PrivateKey.ecOid then ofPointBits? parameters key
        else if (⟨Tag.oid, oidContent oid⟩ : Item).isOid PrivateKey.rsaOid then ofRsaBits? key
        else none := by
  have hkind : (kindItem oid parameters).sequence? = some [⟨Tag.oid, oidContent oid⟩, parameters] := by
    have hmem : kindItem oid parameters ∈ infoItems oid parameters key := by simp [infoItems]
    exact sequence?_flatMap (Nat.lt_trans (length_content_lt_of_mem hmem) h)
  have hkey : (⟨Tag.bitString, 0 :: key⟩ : Item).bitString? = some key := rfl
  rw [ofInfo?, leadingSequence?_encode h]
  simp [infoItems, hkind, hkey]

theorem ofRsaBits?_bytes {modulus exponent : Nat}
    (h : (numbersItem modulus exponent).content.length < Bytes.capacity 127) :
    ofRsaBits? (numbersItem modulus exponent).bytes = some (.rsa modulus exponent) := by
  rw [ofRsaBits?, numbersItem, Item.bytes, leadingSequence?_encode h]
  simp [nat?_natContent]

end PublicKey

/-- The public key of a key is a point of the curve, unless it is the point at infinity. -/
theorem EcKey.onCurve_of_publicKey {k : EcKey} {q : P256.Point} (h : k.publicKey = some q) :
    q.onCurve := by
  unfold publicKey at h
  split at h
  · exact P256.onCurve_of_generatorMultiple? h
  · rename_i point _
    cases h
    exact point.property
  · cases h

theorem PublicKey.ofPointBits?_publicBytes (k : EcKey) (form : CurveForm) (point : P256.PointForm) :
    ofPointBits? (Curve.item form) (k.publicBytes point) = some (.ec k.publicKey) := by
  rw [ofPointBits?, Curve.ofItem?_item, EcKey.publicBytes]
  dsimp only
  cases hpublic : k.publicKey with
  | none => rfl
  | some q =>
    let q' : P256.CurvePoint := ⟨q, EcKey.onCurve_of_publicKey hpublic⟩
    have hne : ¬ q.bytes point = P256.infinityBytes := P256.bytes_ne_infinityBytes q' point
    have hread : P256.point? (q.bytes point) = some (q', point) := P256.point?_bytes_form q' point
    dsimp only
    rw [if_neg hne, hread]
    rfl

/-- A key that signs has a public key that can be written. -/
theorem KeyPair.exists_publicInfo (k : KeyPair) {message signature : Bytes}
    (h : k.signDer message = .ok signature) : ∃ b, k.publicInfo = .ok b := by
  cases k with
  | ec k =>
    by_cases husable : k.isUsable
    · obtain ⟨-, hform⟩ := Bool.and_eq_true_iff.mp husable
      have hbits : (ec k).publicBits = .ok (k.publicBytes k.layout.point) := if_pos hform
      rw [publicInfo, hbits]
      exact ⟨_, rfl⟩
    · have herror : (ec k).signDer message = .error .unusable := if_neg husable
      rw [herror] at h
      cases h
  | rsa k size => exact ⟨_, rfl⟩

/-- What is published of a key tells its public key. -/
theorem PublicKey.ofInfo?_publicInfo {k : KeyPair} {b : Bytes} (h : k.publicInfo = .ok b)
    (hroom : b.length < Bytes.capacity 127) : ofInfo? b = some k.publicKey := by
  rw [← bytes_item h] at hroom ⊢
  have hitems : ((itemsOf k).flatMap Item.bytes).length < Bytes.capacity 127 :=
    Nat.lt_trans (item k).length_content_lt hroom
  cases k with
  | ec k =>
    rw [item, Item.bytes, itemsOf, ofInfo?_infoItems hitems, if_pos (by decide +kernel),
      ofPointBits?_publicBytes]
    rfl
  | rsa k size =>
    -- the numbers are written inside the string of bits, which is one of the values
    have hnumbers : (numbersItem k.numbers.modulus k.numbers.publicExponent).content.length
        < Bytes.capacity 127 := by
      have hmem : (⟨Tag.bitString, 0 :: (numbersItem k.numbers.modulus k.numbers.publicExponent).bytes⟩
          : Item) ∈ itemsOf (.rsa k size) := by simp [itemsOf, infoItems]
      have hbits := length_content_lt_of_mem hmem
      have hshort := (numbersItem k.numbers.modulus k.numbers.publicExponent).length_content_lt
      rw [List.length_cons] at hbits
      omega
    rw [item, Item.bytes, itemsOf, ofInfo?_infoItems hitems, if_neg (by decide +kernel),
      if_pos (by decide +kernel), ofRsaBits?_bytes hnumbers]
    rfl

end Acme
