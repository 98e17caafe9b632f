import Acme.Key.Basic
import Acme.Proofs.FirstFailure
import Acme.Proofs.Key.Ec
import Acme.Proofs.Key.Rsa

/-!
# Keys that are read

A key that has been read is accepted or turned away as it is (`eq_plain_of_accepted`), so of every key
the octets by themselves are read as that key (`ofDer_toDer`), and octets of a kind of key give a key of
that kind (`algorithm_of_ofDer`). Which keys can be written at all is told by what they lack or have too
much of (`Writable`, `writes_toDer`).
-/

namespace Acme

open Der

/-! ### Reading -/

namespace PrivateKey

variable {b : Bytes} {k : PrivateKey}

/-- What octets can say: the fields of a key on P-256, or that the key is of another kind. -/
theorem ofEcDer_cases {outer : Option Curve} (h : ofEcDer outer b = .ok k) :
    (∃ f form key, EcKey.fields? b = some f ∧ f.key form = .ok key ∧ k = .ec key)
      ∨ (∃ curve, k = .otherCurve curve) ∨ ∃ number, k = .other number := by
  unfold ofEcDer at h
  split at h
  · rename_i f hfields
    unfold ofFields at h
    split at h
    · rename_i form hcurve
      -- the curve decides, and on P-256 the public key has to be read too
      obtain ⟨key, hkey, rfl⟩ := map_eq_ok_iff.mp h
      exact .inl ⟨f, form, key, hfields, hkey, rfl⟩
    · cases h
      split
      · exact .inr (.inr ⟨_, rfl⟩)
      · exact .inr (.inl ⟨_, rfl⟩)
    · cases h
      exact .inr (.inl ⟨_, rfl⟩)
    · cases h
  · cases h

end PrivateKey

namespace KeyPair

/-- The key before it is known to be of a kind that is supported. -/
def plain : KeyPair → PrivateKey
  | ec k => .ec k
  | rsa k _ => .rsa k

/-- A key is accepted as what it is. -/
theorem accepted_plain (k : KeyPair) : k.plain.accepted = .ok k := by
  cases k with
  | ec k => rfl
  | rsa k size => exact dif_pos size

theorem eq_plain_of_accepted {k : PrivateKey} {pair : KeyPair} (h : k.accepted = .ok pair) :
    k = pair.plain := by
  unfold PrivateKey.accepted at h
  split at h
  · cases h
    rfl
  · split at h
    · cases h
      rfl
    · cases h
  · cases h
  · cases h

variable {k : KeyPair} {b : Bytes}

/-- Octets of a kind of key give a key of that kind, so that it is never found to be of another. -/
theorem algorithm_of_ofDer {alg : KeyAlgorithm} (h : PrivateKey.ofDer alg b = .ok k.plain) :
    k.algorithm = alg := by
  cases alg with
  | ecdsaP256 =>
    rcases PrivateKey.ofEcDer_cases h with ⟨f, form, key, -, -, hplain⟩ | ⟨curve, hplain⟩
      | ⟨number, hplain⟩ <;> cases k <;> cases hplain
    rfl
  | rsa2048 =>
    change PrivateKey.ofRsaDer b = .ok k.plain at h
    unfold PrivateKey.ofRsaDer at h
    split at h
    · cases k <;> cases h
      rfl
    · cases h

theorem ofDer_eq (alg : KeyAlgorithm) (b : Bytes) :
    ofDer alg b = PrivateKey.ofDer alg b >>= PrivateKey.accepted := by
  unfold ofDer
  cases hread : PrivateKey.ofDer alg b with
  | error e => rfl
  | ok found =>
    show (found.accepted >>= _) = found.accepted
    cases haccepted : found.accepted with
    | error e => rfl
    | ok k =>
      obtain rfl := eq_plain_of_accepted haccepted
      exact if_pos (algorithm_of_ofDer hread)

/-! ### Which keys can be written -/

/-- The keys that can be written: the secret number has no more octets than there is room for, and
the public key does not lack a form of points; an RSA key has all its numbers. -/
def Writable : KeyPair → Prop
  | ec k => k.secret < Bytes.capacity 32 ∧ k.publicPart ≠ .infinity true
  | rsa k _ => k.numbers.primes ≠ none ∧ k.numbers.shortcut ≠ none

/-- Something of a key is written exactly if the key can be. -/
structure Writes (k : KeyPair) {α : Type} (r : Except KeyError α) : Prop where
  ok : k.Writable → ∃ a, r = .ok a
  error : ¬ k.Writable → r = .error .unwritable

theorem Writes.map {k : KeyPair} {α β : Type} {r : Except KeyError α} (h : k.Writes r) (f : α → β) :
    k.Writes (f <$> r) where
  ok hk := by
    obtain ⟨a, rfl⟩ := h.ok hk
    exact ⟨f a, rfl⟩
  error hk := by
    rw [h.error hk]
    rfl

theorem writes_ec (k : EcKey) (b : Bytes) :
    (ec k).Writes (if k.isUsable then .ok b else .error .unwritable) where
  ok hk := ⟨b, if_pos (k.isUsable_iff.mpr hk)⟩
  error hk := if_neg fun husable => hk (k.isUsable_iff.mp husable)

theorem writes_rsa (k : RsaKey) (size : k.numbers.size = PrivateKey.modulusSize)
    (others : List (Nat × Nat × Nat)) (version : Int32) :
    (rsa k size).Writes (RsaKey.encode k.numbers others version) where
  ok hk := by
    obtain ⟨p, hp⟩ := Option.ne_none_iff_exists'.mp hk.1
    obtain ⟨c, hc⟩ := Option.ne_none_iff_exists'.mp hk.2
    exact ⟨_, RsaKey.encode_eq_ok_iff.mpr ⟨p, c, hp, hc, rfl⟩⟩
  error hk := by
    have hcases : (∃ b, RsaKey.encode k.numbers others version = .ok b)
        ∨ RsaKey.encode k.numbers others version = .error .unwritable := RsaKey.encode_cases
    rcases hcases with ⟨b, hb⟩ | herror
    · obtain ⟨p, c, hp, hc, -⟩ := RsaKey.encode_eq_ok_iff.mp hb
      exact absurd ⟨by simp [hp], by simp [hc]⟩ hk
    · exact herror

theorem writes_toDer : (k : KeyPair) → k.Writes k.toDer
  | ec k => writes_ec k _
  | rsa k size => writes_rsa k size _ _

theorem writes_blockContent : (k : KeyPair) → k.Writes k.blockContent
  | ec k => writes_ec k _
  | rsa k size => writes_rsa k size _ _

/-! ### Keys by themselves -/

/-- The key as its own octets tell it. Only the public key of no use and what a block around the key
looks like may be told in another way. -/
def settled : KeyPair → KeyPair
  | ec k => ec k.settled
  | rsa k size => rsa k.settled size

/-- The octets of a key are read as the key. -/
theorem ofDer_toDer (h : k.toDer = .ok b) (hb : b.length < Bytes.memoryLimit) :
    ofDer k.algorithm b = .ok k.settled := by
  rw [ofDer_eq]
  cases k with
  | ec k =>
    change k.toDer = .ok b at h
    unfold EcKey.toDer at h
    split at h
    · rename_i husable
      cases h
      obtain ⟨f, hfields, hcurve, hkey⟩ :=
        EcKey.key_of_encode (k.isUsable_iff.mp husable).1 k.ownLayout true
      show PrivateKey.ofEcDer none (k.encode k.ownLayout true) >>= PrivateKey.accepted = _
      rw [PrivateKey.ofEcDer, hfields]
      simp only [PrivateKey.ofFields, hcurve, if_true, Option.or_none, hkey]
      rfl
    · cases h
  | rsa k size =>
    show PrivateKey.ofRsaDer b >>= PrivateKey.accepted = _
    rw [PrivateKey.ofRsaDer, RsaKey.ofDer?_toDer h (Nat.lt_trans hb Bytes.memoryLimit_lt)]
    exact accepted_plain (rsa k.settled size)

end KeyPair

/-! ### Keys at the edge

The smallest secret number, the one whose public key is the point at infinity, and one that there is
no room for.
-/

namespace EcKey

def unit : EcKey where
  secret := 1
  publicPart := .point ⟨P256.generator, by decide +kernel⟩
  layout := .plain
  fromBlock := false

def zero : EcKey where
  secret := 0
  publicPart := .derived
  layout := .plain
  fromBlock := false

def oversized : EcKey := { unit with secret := Bytes.capacity 32 }

theorem read_unit : KeyPair.ofDer .ecdsaP256 (unit.encode .plain true) = .ok (.ec unit) :=
  KeyPair.ofDer_toDer (k := .ec unit) (by decide +kernel) (by decide +kernel)

theorem read_zero : KeyPair.ofDer .ecdsaP256 (zero.encode .plain true) = .ok (.ec zero) :=
  KeyPair.ofDer_toDer (k := .ec zero) (by decide +kernel) (by decide +kernel)

theorem publicKey_zero : zero.publicKey = none := by
  show (P256.Triple.multiple (0 % P256.n) _).toPoint? = none
  rw [Nat.zero_mod, P256.Triple.multiple]
  rfl

/-- The octets of a key whose secret number takes one octet more than there is room for. -/
def oversizedBytes : Bytes :=
  Der.sequence [Der.int 1, Der.octetString (Bytes.ofNatWidth 33 oversized.secret),
    Der.encode (Tag.contextOuter 0) (Curve.p256Bytes .named),
    Der.encode (Tag.contextOuter 1) (Der.bitString (P256.generator.bytes .uncompressed))]

theorem read_oversized : KeyPair.ofDer .ecdsaP256 oversizedBytes = .ok (.ec oversized) := by
  decide +kernel

end EcKey

end Acme
