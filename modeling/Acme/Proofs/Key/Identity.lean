import Acme.Proofs.Jwk
import Acme.Proofs.Key.PublicKey
import Acme.Proofs.Key.Support

/-!
# What a JSON Web Key tells of a key

The two kinds of keys follow opposite rules: the coordinates of a point have 32 octets, with zeros in
front where these are needed, and the numbers of an RSA key have no zeros in front
(`KeyPair.standsIn_jwk`). Either way the numbers can be read back, so keys that are published alike
are the same public key (`PublicKey.eq_of_standsIn`), and so are keys whose thumbprints are made from
the same text. The point at infinity has no coordinates, so that a key with it is not published at all
(`KeyPair.jwk_eq_error_iff`).
-/

namespace Acme

/-! ### Shortest forms -/

/-- No other form of a number is shorter. -/
theorem Bytes.length_ofNat_toNat_le (b : Bytes) : (ofNat (toNat b)).length ≤ b.length :=
  length_ofNat_le (toNat_lt_capacity b)

/-- The shortest form has no zero in front: without it, it would be shorter still. -/
theorem Bytes.head?_ofNat_ne_zero (n : Nat) : (ofNat n).head? ≠ some 0 := by
  intro hzero
  obtain ⟨rest, hrest⟩ : ∃ rest, ofNat n = 0 :: rest := List.head?_eq_some_iff.mp hzero
  have hsame : toNat rest = n := by
    calc toNat rest = toNat (0 :: rest) := rfl
      _ = toNat (ofNat n) := by rw [hrest]
      _ = n := toNat_ofNat n
  have hshort : (ofNat n).length ≤ rest.length := hsame ▸ length_ofNat_toNat_le rest
  rw [hrest, List.length_cons] at hshort
  omega

namespace Base64

/-- A text gives a number in so many octets. -/
def GivesFixed (width : Nat) (s : String) (n : Nat) : Prop :=
  ∃ b, ofUrl s = .ok b ∧ b.length = width ∧ Bytes.toNat b = n

/-- A text gives a number in as few octets as there can be, with no zero in front. -/
def GivesShortest (s : String) (n : Nat) : Prop :=
  ∃ b, ofUrl s = .ok b ∧ Bytes.toNat b = n ∧ b.head? ≠ some 0
    ∧ ∀ c : Bytes, Bytes.toNat c = n → b.length ≤ c.length

theorem GivesFixed.unique {width m n : Nat} {s : String} (hm : GivesFixed width s m)
    (hn : GivesFixed width s n) : m = n := by
  obtain ⟨b, hb, -, rfl⟩ := hm
  obtain ⟨c, hc, -, rfl⟩ := hn
  obtain rfl : b = c := Except.ok.inj (hb.symm.trans hc)
  rfl

theorem GivesShortest.unique {m n : Nat} {s : String} (hm : GivesShortest s m) (hn : GivesShortest s n) :
    m = n := by
  obtain ⟨b, hb, rfl, -⟩ := hm
  obtain ⟨c, hc, rfl, -⟩ := hn
  obtain rfl : b = c := Except.ok.inj (hb.symm.trans hc)
  rfl

theorem givesFixed_fieldBytes (x : P256.Field) : GivesFixed 32 (toUrl (P256.fieldBytes x)) x.val :=
  ⟨_, ofUrl_toUrl _, P256.length_fieldBytes x, P256.toNat_fieldBytes x⟩

theorem givesShortest_ofNat (n : Nat) : GivesShortest (toUrl (Bytes.ofNat n)) n := by
  refine ⟨_, ofUrl_toUrl _, Bytes.toNat_ofNat n, Bytes.head?_ofNat_ne_zero n, fun c hc => ?_⟩
  exact hc ▸ Bytes.length_ofNat_toNat_le c

end Base64

/-! ### Public keys -/

namespace PublicKey

/-- What a JSON Web Key tells of a public key. -/
inductive StandsIn : PublicKey → Jwk → Prop
  | ec {point : P256.Point} {x y : String} (hx : Base64.GivesFixed 32 x point.x.val)
    (hy : Base64.GivesFixed 32 y point.y.val) : StandsIn (.ec (some point)) (.ec "P-256" x y)
  | rsa {modulus exponent : Nat} {n e : String} (hn : Base64.GivesShortest n modulus)
    (he : Base64.GivesShortest e exponent) : StandsIn (.rsa modulus exponent) (.rsa n e)

/-- A point on the curve or the one at infinity, or a modulus of the right size. -/
def Valid : PublicKey → Prop
  | ec point => ∀ q, point = some q → q.onCurve
  | rsa modulus _ => (Bytes.ofNat modulus).length = PrivateKey.modulusSize

def algorithm : PublicKey → KeyAlgorithm
  | ec _ => .ecdsaP256
  | rsa .. => .rsa2048

variable {q r : PublicKey} {j : Jwk}

/-- A JSON Web Key tells one public key only. -/
theorem eq_of_standsIn (hq : q.StandsIn j) (hr : r.StandsIn j) : q = r := by
  cases hq with
  | ec hx hy =>
    cases hr with
    | ec hx' hy' =>
      rename_i point x y point'
      obtain ⟨px, py⟩ := point
      obtain ⟨qx, qy⟩ := point'
      obtain rfl : px = qx := Fin.ext (hx.unique hx')
      obtain rfl : py = qy := Fin.ext (hy.unique hy')
      rfl
  | rsa hn he =>
    cases hr with
    | rsa hn' he' => rw [hn.unique hn', he.unique he']

end PublicKey

/-! ### Keys -/

namespace KeyPair

variable {k l : KeyPair}

theorem algorithm_publicKey (k : KeyPair) : k.publicKey.algorithm = k.algorithm := by
  cases k <;> rfl

theorem standsIn_jwk (h : k.jwk = .ok j) : k.publicKey.StandsIn j := by
  cases k with
  | ec k =>
    unfold jwk at h
    dsimp only at h
    split at h
    · rename_i q hpublic
      cases h
      rw [publicKey, hpublic]
      exact .ec (Base64.givesFixed_fieldBytes _) (Base64.givesFixed_fieldBytes _)
    · cases h
  | rsa k size =>
    cases h
    exact .rsa (Base64.givesShortest_ofNat _) (Base64.givesShortest_ofNat _)

/-- There is a JSON Web Key of every key but those whose public key is the point at infinity. -/
theorem jwk_cases (k : KeyPair) :
    (k.publicKey ≠ .ec none ∧ ∃ j, k.jwk = .ok j)
      ∨ (k.publicKey = .ec none ∧ k.jwk = .error .noCoordinates) := by
  cases k with
  | ec k =>
    unfold jwk publicKey
    dsimp only
    cases k.publicKey with
    | none => exact .inr ⟨rfl, rfl⟩
    | some q => exact .inl ⟨by simp, _, rfl⟩
  | rsa k size => exact .inl ⟨nofun, _, rfl⟩

theorem exists_jwk (h : k.publicKey ≠ .ec none) : ∃ j, k.jwk = .ok j := by
  rcases k.jwk_cases with ⟨-, hpublished⟩ | ⟨hpublic, -⟩
  · exact hpublished
  · exact absurd hpublic h

theorem jwk_eq_error_iff : k.jwk = .error .noCoordinates ↔ k.publicKey = .ec none := by
  rcases k.jwk_cases with ⟨hpublic, j, hj⟩ | ⟨hpublic, herror⟩
  · exact iff_of_false (fun h => nomatch h.symm.trans hj) hpublic
  · exact iff_of_true herror hpublic

/-- Of a key, nothing but the public key is published. -/
theorem jwk_eq_of_publicKey_eq (h : k.publicKey = l.publicKey) : k.jwk = l.jwk := by
  cases k with
  | ec k =>
    cases l with
    | ec l =>
      have hpoint : k.publicKey = l.publicKey := PublicKey.ec.inj h
      rw [jwk, jwk, hpoint]
    | rsa l size => cases h
  | rsa k size =>
    cases l with
    | ec l => cases h
    | rsa l size =>
      obtain ⟨hmodulus, hexponent⟩ := PublicKey.rsa.inj h
      rw [jwk, jwk, hmodulus, hexponent]

/-- Keys that are published are published alike exactly if they are the same public key. -/
theorem jwk_inj_iff {j' : Jwk} (hk : k.jwk = .ok j) (hl : l.jwk = .ok j') :
    j = j' ↔ k.algorithm = l.algorithm ∧ k.publicKey = l.publicKey := by
  constructor
  · rintro rfl
    have hpublic : k.publicKey = l.publicKey :=
      PublicKey.eq_of_standsIn (standsIn_jwk hk) (standsIn_jwk hl)
    refine ⟨?_, hpublic⟩
    rw [← algorithm_publicKey, ← algorithm_publicKey, hpublic]
  · rintro ⟨-, hpublic⟩
    have hsame := jwk_eq_of_publicKey_eq hpublic
    rw [hk, hl] at hsame
    exact Except.ok.inj hsame

theorem valid_publicKey (k : KeyPair) : k.publicKey.Valid := by
  cases k with
  | ec k => exact fun _ => EcKey.onCurve_of_publicKey
  | rsa k size => exact size

/-- A key has a JSON Web Key unless its public key is the point at infinity. It tells the public key: the
coordinates of a point in 32 octets each, the numbers of an RSA key in as few octets as there can be. The
point is on the curve, the modulus has 256 octets. Keys have the same JSON Web Key, and the same text from
which the thumbprint is made, exactly if they have the same algorithm and the same public key. -/
theorem jwk_identifies (k : KeyPair) :
    k.publicKey.Valid
    ∧ ((k.publicKey ≠ .ec none ∧ ∃ j, k.jwk = .ok j)
      ∨ (k.publicKey = .ec none ∧ k.jwk = .error .noCoordinates ∧ k.thumbprint = .error .noCoordinates))
    ∧ ∀ j, k.jwk = .ok j → k.publicKey.StandsIn j ∧ k.thumbprint = .ok j.thumbprint
      ∧ ∀ l j', KeyPair.jwk l = .ok j' →
        (j = j' ↔ k.algorithm = l.algorithm ∧ k.publicKey = l.publicKey)
        ∧ (j.canonicalText = j'.canonicalText
          ↔ k.algorithm = l.algorithm ∧ k.publicKey = l.publicKey) := by
  refine ⟨k.valid_publicKey, ?_, fun j hk => ⟨standsIn_jwk hk, ?_, fun l j' hl => ?_⟩⟩
  · rcases k.jwk_cases with hpublished | ⟨hpublic, herror⟩
    · exact .inl hpublished
    · refine .inr ⟨hpublic, herror, ?_⟩
      rw [thumbprint, herror]
      rfl
  · rw [thumbprint, hk]
    rfl
  · have hsame := jwk_inj_iff hk hl
    exact ⟨hsame, Jwk.canonicalText_inj.trans hsame⟩

/-- The key with the secret number one, whose point is the generator. -/
theorem unitKey_identified :
    ∃ j, (ec .unit).jwk = .ok j ∧ (PublicKey.ec (some P256.generator)).StandsIn j
      ∧ (ec .unit).thumbprint = .ok j.thumbprint := by
  obtain ⟨-, -, hpublished⟩ := jwk_identifies (.ec .unit)
  obtain ⟨hstands, hthumbprint, -⟩ := hpublished _ rfl
  exact ⟨_, rfl, hstands, hthumbprint⟩

theorem jwk_zero : (ec .zero).jwk = .error .noCoordinates :=
  jwk_eq_error_iff.mpr (congrArg PublicKey.ec EcKey.publicKey_zero)

/-- A key that has been read may have no JSON Web Key. -/
theorem zeroKey_unpublished :
    ofDer .ecdsaP256 (EcKey.zero.encode .plain true) = .ok (.ec .zero)
      ∧ (ec .zero).jwk = .error .noCoordinates :=
  ⟨EcKey.read_zero, jwk_zero⟩

end KeyPair

end Acme
