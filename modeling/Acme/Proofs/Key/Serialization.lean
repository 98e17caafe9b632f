import Acme.Key.Generate
import Acme.Proofs.Key.PublicKey
import Acme.Proofs.Key.Support
import Acme.Proofs.Pem.RoundTrip

/-!
# Keys survive being written

A key that can be written is written by itself, or in a block that becomes a text, and both are read as
the same key (`KeyPair.serialized`), whatever leading zeros or sign bits its numbers have; only with the
point at infinity in it a text is not read. What is written by itself is a key of one kind only: it is
not read as a key of the other (`ofDer_other`). That a key is of another kind than was asked for is never
found out later, so that this error does not occur (`ofDer_ne_mismatch`).

Keys that come out of a text, and new ones, can always be written (`writable_of_ofPem`,
`writable_of_generate?`).
-/

namespace Acme

open Der

namespace KeyPair

variable {k : KeyPair} {b : Bytes}

/-! ### Key blocks -/

/-- The values of a key block: a version, the kind of the key, and its octets. -/
def blockItems (oid : Oid) (parameters : Item) (key : Bytes) : List Item :=
  [⟨Tag.integer, intContent 0⟩, PublicKey.kindItem oid parameters, ⟨Tag.octetString, key⟩]

/-- A block with a kind of key is read as a key of that kind. -/
theorem ofBlock_blockItems {oid : Oid} {parameters : Item} {key : Bytes}
    (h : ((blockItems oid parameters key).flatMap Item.bytes).length < Bytes.capacity 127) :
    PrivateKey.ofBlock (Der.encode Tag.sequence ((blockItems oid parameters key).flatMap Item.bytes))
      = PrivateKey.ofKind ⟨Tag.oid, oidContent oid⟩ [parameters] key := by
  have hkind : (PublicKey.kindItem oid parameters).sequence?
      = some [⟨Tag.oid, oidContent oid⟩, parameters] := by
    have hmem : PublicKey.kindItem oid parameters ∈ blockItems oid parameters key := by
      simp [blockItems]
    exact sequence?_flatMap (Nat.lt_trans (length_content_lt_of_mem hmem) h)
  have hversion : (⟨Tag.integer, intContent 0⟩ : Item).int? = some 0 := int?_intContent 0
  rw [PrivateKey.ofBlock, leadingSequence?_encode h]
  simp [blockItems, hversion, hkind, PrivateKey.attributes?]

theorem writes_toBlock (k : KeyPair) : k.Writes k.toBlock :=
  k.writes_blockContent.map fun content => Der.sequence [Der.int 0, k.kind, Der.octetString content]

theorem writes_toPem (k : KeyPair) : k.Writes k.toPem := k.writes_toBlock.map (Pem.text "PRIVATE KEY")

/-- The key as its octets inside a block tell it. -/
def boxed : KeyPair → KeyPair
  | ec k => ec k.boxed
  | rsa k size => rsa k.boxed size

/-- What a block consists of: the octets of the key with the kind of key in front. -/
theorem exists_blockItems (h : k.toBlock = .ok b) :
    ∃ oid parameters key, k.blockContent = .ok key
      ∧ k.kind = (PublicKey.kindItem oid parameters).bytes
      ∧ b = Der.encode Tag.sequence ((blockItems oid parameters key).flatMap Item.bytes)
      ∧ (key.length < Bytes.capacity 127 →
        PrivateKey.ofKind ⟨Tag.oid, oidContent oid⟩ [parameters] key = .ok k.boxed.plain) := by
  have hoid (oid : Oid) : (⟨Tag.oid, oidContent oid⟩ : Item).isOid oid := by simp [Item.isOid]
  obtain ⟨key, hcontent, ⟨⟩⟩ := bind_eq_ok_iff.mp h
  cases k with
  | ec k =>
    -- the block names the curve, so the octets inside it do without
    have hkind : (ec k).kind
        = (PublicKey.kindItem PrivateKey.ecOid (Curve.item k.layout.curve)).bytes := by
      simp only [PublicKey.kindItem, List.flatMap_cons, List.flatMap_nil, Item.bytes, kind]
      rw [← Curve.bytes_item]
      rfl
    refine ⟨PrivateKey.ecOid, Curve.item k.layout.curve, key, hcontent, hkind, ?_, fun _ => ?_⟩
    · rw [hkind]
      rfl
    · have hwritten : k.toBlock = .ok key := hcontent
      unfold EcKey.toBlock at hwritten
      split at hwritten
      · rename_i husable
        cases hwritten
        obtain ⟨f, hfields, hcurve, hkey⟩ :=
          EcKey.key_of_encode (k.isUsable_iff.mp husable).1 k.layout false
        rw [PrivateKey.ofKind, if_pos (hoid _)]
        simp only [Curve.ofItem?_item, PrivateKey.ofEcDer, hfields, PrivateKey.ofFields, hcurve,
          Bool.false_eq_true, if_false, Option.none_or, hkey]
        rfl
      · cases hwritten
  | rsa k size =>
    -- the kind is compared with that of keys on curves first
    have hother : ¬ (⟨Tag.oid, oidContent PrivateKey.rsaOid⟩ : Item).isOid PrivateKey.ecOid := by
      decide +kernel
    refine ⟨PrivateKey.rsaOid, ⟨Tag.null, []⟩, key, hcontent, rfl, rfl, fun hroom => ?_⟩
    have hwritten : k.toBlock = .ok key := hcontent
    rw [PrivateKey.ofKind, if_neg hother, if_pos (hoid _), PrivateKey.ofRsaDer,
      RsaKey.ofDer?_toBlock hwritten hroom]
    rfl

/-- A block is read as the key that it tells of. -/
theorem ofBlock_toBlock (h : k.toBlock = .ok b) (hb : b.length < Bytes.memoryLimit) :
    PrivateKey.ofBlock b = .ok k.boxed.plain := by
  obtain ⟨oid, parameters, key, -, -, rfl, hkind⟩ := exists_blockItems h
  have hitems : ((blockItems oid parameters key).flatMap Item.bytes).length < Bytes.capacity 127 :=
    Nat.lt_trans (Item.length_content_lt ⟨Tag.sequence, _⟩) (Nat.lt_trans hb Bytes.memoryLimit_lt)
  have hkey : key.length < ((blockItems oid parameters key).flatMap Item.bytes).length :=
    length_content_lt_of_mem (i := ⟨Tag.octetString, key⟩) (by simp [blockItems])
  rw [ofBlock_blockItems hitems]
  exact hkind (Nat.lt_trans hkey hitems)

/-! ### Texts -/

/-- The public key is the point at infinity and written along. -/
def AtInfinity : KeyPair → Prop
  | ec k => ∃ wasRead, k.publicPart = .infinity wasRead
  | rsa .. => False

/-- The key after its block was read and it was taken out of it. -/
def unwrapped : KeyPair → KeyPair
  | ec k => ec { k.boxed with fromBlock := true }
  | rsa k size => rsa k.boxed.unwrapped size

/-- A text with a key is read as what its block tells, if that can be used outside the block. -/
theorem ofPem_text (h : k.toBlock = .ok b) (hb : b.length < Bytes.memoryLimit) :
    ofPem (Bytes.ofText (Pem.text "PRIVATE KEY" b))
      = k.boxed.plain.unwrapped >>= PrivateKey.accepted := by
  let label := Bytes.ofText "PRIVATE KEY"
  have hbegin : Pem.Clean (Pem.beginLine label) :=
    ⟨by decide +kernel, by decide +kernel, by decide +kernel⟩
  have hend : Pem.Clean (Pem.endLine label) :=
    ⟨by decide +kernel, by decide +kernel, by decide +kernel⟩
  have hcontent : b ≠ [] := by
    obtain ⟨oid, parameters, key, -, -, rfl, -⟩ := exists_blockItems h
    exact List.cons_ne_nil _ _
  have hread : PrivateKey.ofPemBlock ⟨label, [], b⟩ = .ok k.boxed.plain := ofBlock_toBlock h hb
  rw [ofPem, PrivateKey.ofPem, Pem.blocks_text hcontent hbegin hend]
  simp only [List.filterMap_cons, List.filterMap_nil, Option.map_some]
  show PrivateKey.first [PrivateKey.ofPemBlock ⟨label, [], b⟩] >>= PrivateKey.unwrapped >>= _ = _
  rw [hread]
  rfl

theorem ofPem_toPem (h : k.toBlock = .ok b) (hb : b.length < Bytes.memoryLimit)
    (hpoint : ¬ k.AtInfinity) :
    ofPem (Bytes.ofText (Pem.text "PRIVATE KEY" b)) = .ok k.unwrapped := by
  rw [ofPem_text h hb]
  cases k with
  | ec k =>
    have hsecret : k.secret < Bytes.capacity 32 := by
      by_contra hlarge
      have herror := (ec k).writes_toBlock.error fun hk => hlarge hk.1
      exact nomatch herror.symm.trans h
    have husable : k.boxed.isUsable :=
      (k.told_isUsable_iff _).mpr ⟨hsecret, fun wasRead hpart => hpoint ⟨wasRead, hpart⟩⟩
    show PrivateKey.ec <$> k.boxed.unwrapped >>= PrivateKey.accepted = _
    rw [EcKey.unwrapped, if_pos husable]
    rfl
  | rsa k size => exact accepted_plain (rsa k.boxed.unwrapped size)

theorem ofPem_toPem_atInfinity (h : k.toBlock = .ok b) (hb : b.length < Bytes.memoryLimit)
    (hpoint : k.AtInfinity) :
    ofPem (Bytes.ofText (Pem.text "PRIVATE KEY" b)) = .error .malformed := by
  rw [ofPem_text h hb]
  cases k with
  | ec k =>
    obtain ⟨wasRead, hpart⟩ := hpoint
    have husable : ¬ k.boxed.isUsable := fun h => ((k.told_isUsable_iff _).mp h).2 wasRead hpart
    show PrivateKey.ec <$> k.boxed.unwrapped >>= PrivateKey.accepted = _
    rw [EcKey.unwrapped, if_neg husable]
    rfl
  | rsa k size => exact hpoint.elim

/-! ### The other kind of key -/

/-- No number is a string of octets, and no key on a curve has as many values as an RSA key. -/
theorem ofDer_other (h : k.toDer = .ok b) (hb : b.length < Bytes.memoryLimit) {alg : KeyAlgorithm}
    (hother : alg ≠ k.algorithm) : ofDer alg b = .error .malformed := by
  rw [ofDer_eq]
  cases k with
  | ec k =>
    cases alg with
    | ecdsaP256 => exact absurd rfl hother
    | rsa2048 =>
      have hnone (l : EcLayout) : RsaKey.ofDer? (k.encode l true) = none := by
        rw [RsaKey.ofDer?, EcKey.encode_eq, leadingSequence?_encode (k.length_items_lt l true),
          EcKey.items]
        by_cases hderived : k.publicPart = .derived <;> simp [hderived]
      change k.toDer = .ok b at h
      unfold EcKey.toDer at h
      split at h
      · cases h
        show PrivateKey.ofRsaDer _ >>= PrivateKey.accepted = _
        rw [PrivateKey.ofRsaDer, hnone]
        rfl
      · cases h
  | rsa k size =>
    cases alg with
    | rsa2048 => exact absurd rfl hother
    | ecdsaP256 =>
      obtain ⟨p, c, -, -, rfl⟩ := RsaKey.encode_eq_ok_iff.mp h
      have hitems := RsaKey.length_items_lt (Nat.lt_trans hb Bytes.memoryLimit_lt)
      -- the second value is a number where a key on a curve has a string of octets
      have hstring (n : Nat) : (RsaNumbers.numberItem n).octetString? = none := rfl
      have hnone : EcKey.fields? (Der.encode Tag.sequence
          ((k.numbers.items p c k.ownOthers k.ownVersion).flatMap Item.bytes)) = none := by
        rw [EcKey.fields?, leadingSequence?_encode hitems, RsaNumbers.items, RsaNumbers.fixed]
        simp [hstring]
      show PrivateKey.ofEcDer none _ >>= PrivateKey.accepted = _
      rw [PrivateKey.ofEcDer, hnone]
      rfl

end KeyPair

/-- Of the fields of a key, it is the public key that may be no good. -/
theorem EcKey.Fields.error_of_key {f : Fields} {form : CurveForm} {e : KeyError}
    (h : f.key form = .error e) : e = .malformed := by
  unfold key at h
  dsimp only at h
  split at h
  · cases h
  · split at h
    · cases h
    · cases h
      rfl

/-- Octets are no key for the one reason that they cannot be read as one. -/
theorem PrivateKey.error_of_ofDer {alg : KeyAlgorithm} {b : Bytes} {e : KeyError}
    (h : ofDer alg b = .error e) : e = .malformed := by
  cases alg with
  | ecdsaP256 =>
    change ofEcDer none b = _ at h
    unfold ofEcDer ofFields at h
    split at h
    · rename_i f _
      split at h
      · rename_i form _
        cases hkey : f.key form with
        | error e =>
          rw [hkey] at h
          cases h
          exact EcKey.Fields.error_of_key hkey
        | ok key =>
          rw [hkey] at h
          cases h
      · cases h
      · cases h
      · cases h
        rfl
    · cases h
      rfl
  | rsa2048 =>
    change ofRsaDer b = _ at h
    unfold ofRsaDer at h
    split at h
    · cases h
    · cases h
      rfl

namespace KeyPair

theorem ofDer_ne_mismatch (alg : KeyAlgorithm) (b : Bytes) (expected found : KeyAlgorithm) :
    ofDer alg b ≠ .error (.mismatch expected found) := by
  intro h
  rw [ofDer_eq] at h
  cases hread : PrivateKey.ofDer alg b with
  | error e =>
    rw [hread] at h
    cases h
    cases PrivateKey.error_of_ofDer hread
  | ok key =>
    rw [hread] at h
    obtain ⟨kind, hkind⟩ := PrivateKey.unsupported_of_error (k := key) h
    cases hkind

end KeyPair

/-! ### Keys from texts and new keys -/

namespace PrivateKey

/-- RSA keys that are read have all their numbers. -/
def Complete : PrivateKey → Prop
  | rsa k => k.numbers.primes ≠ none ∧ k.numbers.shortcut ≠ none
  | ec _ | otherCurve _ | other _ => True

variable {b : Bytes} {k : PrivateKey}

theorem complete_of_ofDer? {key : RsaKey} (h : RsaKey.ofDer? b = some key) :
    (PrivateKey.rsa key).Complete := by
  obtain ⟨is, -, h⟩ := Option.bind_eq_some_iff.mp h
  dsimp only at h
  split at h
  · obtain ⟨version, -, h⟩ := Option.bind_eq_some_iff.mp h
    obtain ⟨others, -, h⟩ := Option.bind_eq_some_iff.mp h
    simp only [Option.bind_eq_bind, Option.bind_eq_some_iff] at h
    obtain ⟨modulus, -, publicExponent, -, privateExponent, -, prime₁, -, prime₂, -, exponent₁, -,
      exponent₂, -, coefficient, -, h⟩ := h
    split at h
    · cases h
      exact ⟨Option.some_ne_none _, Option.some_ne_none _⟩
    · cases h
  · cases h

theorem complete_of_ofRsaDer (h : ofRsaDer b = .ok k) : k.Complete := by
  unfold ofRsaDer at h
  split at h
  · rename_i hkey
    cases h
    exact complete_of_ofDer? hkey
  · cases h

theorem complete_of_ofEcDer {outer : Option Curve} (h : ofEcDer outer b = .ok k) : k.Complete := by
  rcases ofEcDer_cases h with ⟨f, form, key, -, -, rfl⟩ | ⟨curve, rfl⟩ | ⟨number, rfl⟩ <;> trivial

theorem complete_of_ofKind {kind : Item} {parameters : List Item}
    (h : ofKind kind parameters b = .ok k) : k.Complete := by
  unfold ofKind at h
  split at h
  · split at h
    · split at h
      · exact complete_of_ofEcDer h
      · cases h
    · cases h
  split at h
  · exact complete_of_ofRsaDer h
  · split at h
    · split at h
      · cases h
        trivial
      · cases h
    · cases h

theorem complete_of_ofBlock (h : ofBlock b = .ok k) : k.Complete := by
  unfold ofBlock at h
  split at h
  · split at h
    · split at h
      · exact complete_of_ofKind h
      · cases h
    · cases h
  · cases h

/-- What is found first is one of what is looked at. -/
theorem mem_of_first {rs : List (Except KeyError PrivateKey)} (h : first rs = .ok k) :
    .ok k ∈ rs := by
  induction rs with
  | nil => cases h
  | cons r rest ih =>
    unfold first at h
    split at h
    · cases h
    · rename_i heq
      cases heq
      exact List.mem_cons_of_mem _ (ih h)
    · rename_i heq
      cases heq
      rw [h]
      exact List.mem_cons_self

theorem of_require {fits : PrivateKey → Bool} {r : Except KeyError PrivateKey}
    (h : .ok k = r >>= require fits) : r = .ok k := by
  cases r with
  | error e => cases h
  | ok found =>
    change .ok k = require fits found at h
    unfold require at h
    split at h
    · exact h.symm
    · cases h

theorem complete_of_ofPemBlock {block : Pem.Block} (h : ofPemBlock block = .ok k) : k.Complete := by
  unfold ofPemBlock at h
  dsimp only at h
  split at h
  · cases h
  split at h
  · exact complete_of_ofBlock h
  split at h
  · have hmem := mem_of_first h
    simp only [List.mem_cons, List.not_mem_nil, or_false] at hmem
    -- the key by itself is tried before a block around it
    rcases hmem with hbare | hblock
    · exact complete_of_ofEcDer hbare.symm
    · exact complete_of_ofBlock (of_require hblock)
  split at h
  · have hmem := mem_of_first h
    simp only [List.mem_cons, List.not_mem_nil, or_false] at hmem
    rcases hmem with hbare | hblock
    · exact complete_of_ofRsaDer hbare.symm
    · exact complete_of_ofBlock (of_require hblock)
  · cases h

end PrivateKey

namespace KeyPair

variable {k : KeyPair} {b : Bytes}

theorem writable_of_complete {key : RsaKey} (h : (PrivateKey.rsa key).accepted = .ok k)
    (hkey : (PrivateKey.rsa key).Complete) : k.Writable := by
  obtain hplain := eq_plain_of_accepted h
  cases k with
  | ec key' => cases hplain
  | rsa key' size =>
    cases hplain
    exact hkey

/-- A key in a text has to be written to get it out of its block, so it can be written again. -/
theorem writable_of_ofPem (h : ofPem b = .ok k) : k.Writable := by
  obtain ⟨unwrapped, hread, haccepted⟩ := bind_eq_ok_iff.mp h
  obtain ⟨found, hfirst, hunwrapped⟩ := bind_eq_ok_iff.mp hread
  -- the key comes from one of the blocks
  obtain ⟨_, -, hmap⟩ := List.mem_filterMap.mp (PrivateKey.mem_of_first hfirst)
  obtain ⟨block, rfl, hblock⟩ := Option.map_eq_some_iff.mp hmap
  have hcomplete := PrivateKey.complete_of_ofPemBlock hblock
  cases found with
  | ec key =>
    obtain ⟨outside, hkey, rfl⟩ := map_eq_ok_iff.mp hunwrapped
    cases haccepted
    unfold EcKey.unwrapped at hkey
    split at hkey
    · rename_i husable
      cases hkey
      exact key.isUsable_iff.mp husable
    · cases hkey
  | rsa key =>
    cases hunwrapped
    exact writable_of_complete haccepted hcomplete
  | otherCurve curve =>
    cases hunwrapped
    cases haccepted
  | other number =>
    cases hunwrapped
    cases haccepted

theorem ok_of_toOption {r : Except KeyError KeyPair} (h : r.toOption = some k) : r = .ok k := by
  cases r with
  | error e => cases h
  | ok found =>
    cases h
    rfl

theorem n_le : P256.n ≤ Bytes.capacity 32 := by decide +kernel

theorem writable_of_generate? {alg : KeyAlgorithm} {seed : Bytes} (h : generate? alg seed = some k) :
    k.Writable := by
  cases alg with
  | ecdsaP256 =>
    change (EcKey.ofSecret? _).map ec = some k at h
    obtain ⟨key, hkey, rfl⟩ := Option.map_eq_some_iff.mp h
    obtain ⟨q, -, hkey⟩ := Option.bind_eq_some_iff.mp hkey
    obtain ⟨q', -, hkey⟩ := Option.bind_eq_some_iff.mp hkey
    split at hkey
    · rename_i hsecret
      cases hkey
      -- a new secret number is below the order of the group
      exact ⟨Nat.lt_of_lt_of_le hsecret n_le, nofun⟩
    · cases hkey
  | rsa2048 =>
    unfold generate? generateRsa? at h
    simp only [Option.bind_eq_bind, Option.bind_eq_some_iff] at h
    obtain ⟨p, -, q, -, d, -, coefficient, -, h⟩ := h
    split at h
    · cases h
    · exact writable_of_complete (ok_of_toOption h) ⟨Option.some_ne_none _, Option.some_ne_none _⟩

/-! ### What is kept -/

/-- What nobody but the owner of a key knows; of the further primes of an RSA key, those that are kept
in any case. -/
def secretPart : KeyPair → Nat ⊕ RsaNumbers × List (Nat × Nat × Nat)
  | ec k => .inl k.secret
  | rsa k _ => .inr (k.numbers, k.others.take RsaKey.keptPrimes)

/-- A key that is the same as another, however it is written. -/
structure Same (k k' : KeyPair) : Prop where
  algorithm : k'.algorithm = k.algorithm
  secretPart : k'.secretPart = k.secretPart
  publicKey : k'.publicKey = k.publicKey
  jwk : k'.jwk = k.jwk
  thumbprint : k'.thumbprint = k.thumbprint

theorem same_ec {k k' : EcKey} (hsecret : k'.secret = k.secret) (hpublic : k'.publicKey = k.publicKey) :
    (ec k).Same (ec k') := by
  have hjwk : (ec k').jwk = (ec k).jwk := by rw [jwk, jwk, hpublic]
  exact {
    algorithm := rfl
    secretPart := congrArg Sum.inl hsecret
    publicKey := congrArg PublicKey.ec hpublic
    jwk := hjwk
    thumbprint := by rw [thumbprint, thumbprint, hjwk] }

theorem same_settled (k : KeyPair) : k.Same k.settled := by
  cases k with
  | ec k => exact same_ec (k.told_secret _) (k.told_publicKey _)
  | rsa k size =>
    refine ⟨rfl, ?_, rfl, rfl, rfl⟩
    show Sum.inr (k.numbers, k.ownOthers.take RsaKey.keptPrimes) = _
    rw [RsaKey.ownOthers]
    split
    · rw [List.take_take, Nat.min_self]
      rfl
    · rfl

theorem same_unwrapped (k : KeyPair) : k.Same k.unwrapped := by
  cases k with
  | ec k => exact same_ec (k.told_secret _) (k.told_publicKey _)
  | rsa k size => exact ⟨rfl, rfl, rfl, rfl, rfl⟩

/-- What becomes of a key that is written and read again. Its own octets are read as the same key, and
not as one of the other kind; so is the text of its block, unless the public key is the point at infinity. -/
structure Serializes (k : KeyPair) : Prop where
  writes : k.Writes k.toDer ∧ k.Writes k.toPem
  octets : ∀ b, k.toDer = .ok b → b.length < Bytes.memoryLimit →
    ∃ k', ofDer k.algorithm b = .ok k' ∧ k.Same k'
  otherKind : ∀ b, k.toDer = .ok b → b.length < Bytes.memoryLimit →
    ∀ alg, alg ≠ k.algorithm → ∃ e, ofDer alg b = .error e
  text : ∀ b, k.toBlock = .ok b → b.length < Bytes.memoryLimit →
    ∃ s, k.toPem = .ok s
      ∧ (¬ k.AtInfinity → ∃ k', ofPem (Bytes.ofText s) = .ok k' ∧ k.Same k')
      ∧ (k.AtInfinity → ofPem (Bytes.ofText s) = .error .malformed)

end KeyPair

end Acme
