import Acme.Key.Generate
import Acme.Proofs.Key.Reading
import Mathlib.Data.Nat.Size

/-!
# Keys that are supported

Which keys are turned away is decided by their kind, by their curve, and by the length of their modulus. The
length is measured in octets, so that any modulus of 2041 to 2048 bits has the right one
(`RsaNumbers.size_eq_iff`): a key of 2047 bits is not turned away (`shortKey_accepted`). Apart from that only
keys on P-256 and RSA keys of 2048 bits are supported (`accepted_iff_supported`).
-/

namespace Acme

/-! ### Octets and bits -/

theorem Bytes.length_ofNat_le_iff {n k : Nat} : (ofNat n).length ≤ k ↔ n < capacity k := by
  refine ⟨fun h => ?_, length_ofNat_le⟩
  calc n = toNat (ofNat n) := (toNat_ofNat n).symm
    _ < capacity (ofNat n).length := toNat_lt_capacity _
    _ ≤ capacity k := capacity_mono h

theorem Bytes.capacity_eq (k : Nat) : capacity k = 2 ^ (8 * k) := by
  rw [Nat.pow_mul]
  rfl

/-- A number of so many bits has room in the octets that these fill. -/
theorem Bytes.length_ofNat_le_iff_size {n k : Nat} : (ofNat n).length ≤ k ↔ n.size ≤ 8 * k := by
  rw [length_ofNat_le_iff, capacity_eq, Nat.size_le]

/-- A modulus has the right number of octets if it has at most seven bits too few. -/
theorem RsaNumbers.size_eq_iff (k : RsaNumbers) :
    k.size = PrivateKey.modulusSize ↔ 2040 < k.modulus.size ∧ k.modulus.size ≤ 2048 := by
  have hhigh : k.size ≤ 256 ↔ k.modulus.size ≤ 2048 := Bytes.length_ofNat_le_iff_size
  have hlow : k.size ≤ 255 ↔ k.modulus.size ≤ 2040 := Bytes.length_ofNat_le_iff_size
  rw [PrivateKey.modulusSize]
  omega

/-! ### Kinds of keys -/

/-- The keys that are supported, with their algorithms. -/
inductive PrivateKey.Supported : PrivateKey → KeyAlgorithm → Prop
  | ec (k : EcKey) : Supported (.ec k) .ecdsaP256
  | rsa {k : RsaKey} (hlow : 2040 < k.numbers.modulus.size) (hhigh : k.numbers.modulus.size ≤ 2048) :
    Supported (.rsa k) .rsa2048

/-- The keys that are meant to be supported: of RSA keys only those of exactly 2048 bits. -/
inductive PrivateKey.Intended : PrivateKey → KeyAlgorithm → Prop
  | ec (k : EcKey) : Intended (.ec k) .ecdsaP256
  | rsa {k : RsaKey} (h : k.numbers.modulus.size = 2048) : Intended (.rsa k) .rsa2048

namespace PrivateKey

variable {k : PrivateKey} {pair : KeyPair} {b : Bytes}

theorem accepted_eq_ok_iff :
    k.accepted = .ok pair ↔ pair.plain = k ∧ k.Supported pair.algorithm := by
  constructor
  · intro h
    obtain rfl := KeyPair.eq_plain_of_accepted h
    cases pair with
    | ec key => exact ⟨rfl, .ec key⟩
    | rsa key size =>
      obtain ⟨hlow, hhigh⟩ := key.numbers.size_eq_iff.mp size
      exact ⟨rfl, .rsa hlow hhigh⟩
  · rintro ⟨rfl, -⟩
    exact pair.accepted_plain

theorem unsupported_of_error {e : KeyError} (h : k.accepted = .error e) :
    ∃ kind, e = .unsupported kind := by
  unfold accepted at h
  split at h
  · cases h
  · split at h
    · cases h
    · cases h
      exact ⟨_, rfl⟩
  · cases h
    exact ⟨_, rfl⟩
  · cases h
    exact ⟨_, rfl⟩

/-- A key that is not supported is turned away as such. -/
theorem exists_unsupported (h : ∀ alg, ¬ k.Supported alg) :
    ∃ kind, k.accepted = .error (.unsupported kind) := by
  cases haccepted : k.accepted with
  | ok pair => exact absurd (accepted_eq_ok_iff.mp haccepted).2 (h _)
  | error e =>
    obtain ⟨kind, rfl⟩ := unsupported_of_error haccepted
    exact ⟨kind, rfl⟩

/-- The keys that are supported are those that are meant to be, but for RSA keys of 2041 to 2047 bits. -/
theorem supported_iff_intended_iff :
    (∀ alg, k.Supported alg ↔ k.Intended alg)
      ↔ ∀ key, k = .rsa key → key.numbers.modulus.size ∉ Set.Icc 2041 2047 := by
  constructor
  · rintro h key rfl ⟨hlow, hhigh⟩
    have hsize : key.numbers.modulus.size ≤ 2048 := by omega
    cases (h .rsa2048).mp (.rsa hlow hsize) with
    | rsa hexact => omega
  · intro h alg
    constructor
    · intro hsupported
      cases hsupported with
      | ec key => exact .ec key
      | rsa hlow hhigh =>
        rename_i key
        have hshort := h key rfl
        -- a length that is supported and not excluded is the one that is intended
        rw [Set.mem_Icc] at hshort
        exact .rsa (by omega)
    · intro hintended
      cases hintended with
      | ec key => exact .ec key
      | rsa hexact => exact .rsa (by omega) (by omega)

/-- What octets of a kind of key give is of that kind, if it is supported at all. -/
theorem supported_ofDer {alg other : KeyAlgorithm} (h : ofDer alg b = .ok k) (hk : k.Supported other) :
    other = alg := by
  cases hk with
  | ec key => exact KeyPair.algorithm_of_ofDer (k := .ec key) h
  | @rsa key hlow hhigh =>
    have size := key.numbers.size_eq_iff.mpr ⟨hlow, hhigh⟩
    exact KeyPair.algorithm_of_ofDer (k := .rsa key size) h

/-! ### Curves -/

/-- A key on a curve is supported exactly if the curve is P-256. -/
theorem supported_ofEcDer_iff {outer : Option Curve} {f : EcKey.Fields} (hfields : EcKey.fields? b = some f)
    (h : ofEcDer outer b = .ok k) :
    k.Supported .ecdsaP256 ↔ ∃ form, f.curve.or outer = some (.p256 form) := by
  rw [ofEcDer, hfields] at h
  dsimp only [ofFields] at h
  split at h
  · rename_i form hcurve
    obtain ⟨key, -, rfl⟩ := map_eq_ok_iff.mp h
    exact iff_of_true (.ec key) ⟨form, hcurve⟩
  · rename_i c hcurve
    cases h
    -- a curve that has another name
    refine iff_of_false (fun h => ?_) (by simp [hcurve])
    split at h <;> cases h
  · rename_i hcurve
    cases h
    exact iff_of_false (fun h => by cases h) (by simp [hcurve])
  · cases h

end PrivateKey

/-- The object identifier of P-256 names P-256. -/
theorem RegisteredCurve.ofItem?_eq_p256_iff {i : Der.Item} :
    ofItem? i = some p256 ↔ i.isOid p256.oid := by
  constructor
  · exact List.find?_some (p := fun c : RegisteredCurve => i.isOid c.oid)
  · intro h
    obtain ⟨tag, content⟩ := i
    simp only [Der.Item.isOid, Bool.and_eq_true, beq_iff_eq] at h
    obtain ⟨rfl, rfl⟩ := h
    decide +kernel

/-- A curve that is named is P-256 exactly if its object identifier is. -/
theorem Curve.named_iff {i : Der.Item} {c : RegisteredCurve} (h : RegisteredCurve.ofItem? i = some c) :
    (∃ form, ofItem? i = some (.p256 form)) ↔ i.isOid RegisteredCurve.p256.oid := by
  rw [← RegisteredCurve.ofItem?_eq_p256_iff, ofItem?, h]
  dsimp only
  split
  · rename_i hc
    simp [hc]
  · rename_i hc
    simp [hc]

/-! ### Keys that are read -/

namespace KeyPair

/-- A key is accepted exactly if it is on P-256 or is an RSA key whose modulus has 2041 to 2048 bits, with
the algorithm of its kind, and is turned away as unsupported otherwise; this is what is intended, unless the
modulus has 2041 to 2047 bits. Keys from texts and from octets are treated alike, and octets give only keys of
the kind that is asked for. A key on a curve is on P-256 if its fields or else the block around it say so,
which of curves with a name are those that have the object identifier of P-256. -/
theorem accepted_iff_supported (k : PrivateKey) :
    (∀ pair, k.accepted = .ok pair ↔ pair.plain = k ∧ k.Supported pair.algorithm)
      ∧ ((∀ alg, ¬ k.Supported alg) → ∃ kind, k.accepted = .error (.unsupported kind))
      ∧ ((∀ alg, k.Supported alg ↔ k.Intended alg)
        ↔ ∀ key, k = .rsa key → key.numbers.modulus.size ∉ Set.Icc 2041 2047)
      ∧ (∀ b, PrivateKey.ofPem b = .ok k → ofPem b = k.accepted)
      ∧ (∀ alg b, PrivateKey.ofDer alg b = .ok k →
        ofDer alg b = k.accepted ∧ ∀ other, k.Supported other → other = alg)
      ∧ (∀ outer b f, EcKey.fields? b = some f → PrivateKey.ofEcDer outer b = .ok k →
        (k.Supported .ecdsaP256 ↔ ∃ form, f.curve.or outer = some (.p256 form)))
      ∧ ∀ i c, RegisteredCurve.ofItem? i = some c →
        ((∃ form, Curve.ofItem? i = some (.p256 form)) ↔ i.isOid RegisteredCurve.p256.oid) := by
  have hread {r : Except KeyError PrivateKey} (h : r = .ok k) : r >>= PrivateKey.accepted = k.accepted := by
    rw [h]
    rfl
  exact ⟨fun _ => PrivateKey.accepted_eq_ok_iff, PrivateKey.exists_unsupported,
    PrivateKey.supported_iff_intended_iff, fun _ => hread,
    fun _ _ h => ⟨(ofDer_eq _ _).trans (hread h), fun _ => PrivateKey.supported_ofDer h⟩,
    fun _ _ _ => PrivateKey.supported_ofEcDer_iff, fun _ _ => Curve.named_iff⟩

/-! ### RSA keys -/

/-- The numbers of a key with the primes `p` and `p + gap`. Its private exponent and its coefficient are
inverses, of the public exponent and of the gap: each is made from a multiple that is one too small to be
divided. -/
def numbersAt (p gap ordersBelow primesBelow : Nat) : RsaNumbers :=
  let q := p + gap
  let d := (ordersBelow * ((p - 1) * (q - 1)) + 1) / newExponent
  { modulus := p * q, publicExponent := newExponent, privateExponent := d
    primes := some { prime₁ := p, prime₂ := q }
    shortcut := some {
      exponent₁ := d % (p - 1), exponent₂ := d % (q - 1), coefficient := (primesBelow * p + 1) / gap } }

/-- The numbers of a key with the two smallest primes of 1024 bits that suit the public exponent. -/
def shortNumbers : RsaNumbers := numbersAt (2 ^ 1023 + 1155) 338 191 41

/-- A key whose modulus has one bit less than it should. -/
def shortKey : RsaKey := .ofNumbers shortNumbers

theorem size_shortKey : shortKey.numbers.modulus.size = 2047 := by
  have hhigh : shortKey.numbers.modulus.size ≤ 2047 := Nat.size_le.mpr (by decide +kernel)
  have hlow : 2046 < shortKey.numbers.modulus.size := Nat.lt_size.mpr (by decide +kernel)
  omega

theorem fits_shortKey : shortKey.numbers.size = PrivateKey.modulusSize := by
  rw [RsaNumbers.size_eq_iff, size_shortKey]
  exact ⟨by decide, by decide⟩

/-- A key of 2047 bits is not turned away. -/
theorem shortKey_accepted :
    shortKey.numbers.modulus.size = 2047
      ∧ ∃ b, shortKey.toDer = .ok b ∧ ofDer .rsa2048 b = .ok (.rsa shortKey fits_shortKey) := by
  obtain ⟨b, hb⟩ : ∃ b, shortKey.toDer = .ok b :=
    (writes_toDer (.rsa shortKey fits_shortKey)).ok ⟨nofun, nofun⟩
  have hlength : b.length < Bytes.memoryLimit := by
    have hshort : shortKey.toDer.toOption.all (·.length < Bytes.memoryLimit) := by decide +kernel
    rw [hb] at hshort
    exact of_decide_eq_true hshort
  exact ⟨size_shortKey, b, hb, ofDer_toDer (k := .rsa shortKey fits_shortKey) hb hlength⟩

/-! Two keys of 2048 bits, with the next primes after three quarters of what 1024 bits can hold. -/

def earlierNumbers : RsaNumbers := numbersAt (3 * 2 ^ 1022 + 1037) 660 16421 151

def laterNumbers : RsaNumbers := numbersAt (3 * 2 ^ 1022 + 1937) 150 10399 1

theorem size_earlierNumbers : earlierNumbers.modulus.size = 2048 :=
  Nat.le_antisymm (Nat.size_le.mpr (by decide +kernel)) (Nat.lt_size.mpr (by decide +kernel))

theorem size_laterNumbers : laterNumbers.modulus.size = 2048 :=
  Nat.le_antisymm (Nat.size_le.mpr (by decide +kernel)) (Nat.lt_size.mpr (by decide +kernel))

theorem fits_of_size {k : RsaNumbers} (h : k.modulus.size = 2048) :
    k.size = PrivateKey.modulusSize := by
  rw [k.size_eq_iff, h]
  exact ⟨by decide, by decide⟩

def earlier : KeyPair := .rsa (.ofNumbers earlierNumbers) (fits_of_size size_earlierNumbers)

def later : KeyPair := .rsa (.ofNumbers laterNumbers) (fits_of_size size_laterNumbers)

theorem later_ne_earlier : later ≠ earlier := by
  intro h
  have hmodulus : laterNumbers.modulus = earlierNumbers.modulus :=
    congrArg (·.numbers.modulus) (KeyPair.rsa.inj h)
  exact absurd hmodulus (by decide +kernel)

/-- The key with the secret number one is accepted, and a key on the curve P-384 is not. -/
theorem unitKey_supported :
    ofDer .ecdsaP256 (EcKey.unit.encode .plain true) = .ok (.ec .unit)
      ∧ ∃ kind, PrivateKey.accepted (.otherCurve (some ⟨[1, 3, 132, 0, 34], 715, "secp384r1"⟩))
        = .error (.unsupported kind) := by
  have hread : PrivateKey.ofDer .ecdsaP256 (EcKey.unit.encode .plain true) = .ok (.ec .unit) := by
    decide +kernel
  obtain ⟨haccepted, -, -, -, hoctets, -⟩ := accepted_iff_supported (.ec .unit)
  obtain ⟨-, hunsupported, -⟩ :=
    accepted_iff_supported (.otherCurve (some ⟨[1, 3, 132, 0, 34], 715, "secp384r1"⟩))
  refine ⟨(hoctets _ _ hread).1.trans ((haccepted _).mpr ⟨rfl, .ec _⟩), hunsupported ?_⟩
  intro alg h
  cases h

end KeyPair

end Acme
