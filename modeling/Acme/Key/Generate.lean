import Acme.Key.Basic

/-!
# New keys

Makes keys from a seed. All that is random about a key comes from the seed, which is stretched by a
keyed hash, so making a key is a function; a program passes a seed that nobody else knows.

Primes are found by trying numbers of the right size until one passes `isProbablePrime`.
-/

namespace Acme.KeyPair

/-- The part of the stretched seed with a number, as a number below the capacity of `32 * count` octets. -/
def stretched (seed : Bytes) (label count : Nat) : Nat :=
  Bytes.toNat ((List.range count).flatMap fun i =>
    Sha256.hmac seed (Bytes.ofNatWidth 4 label ++ Bytes.ofNatWidth 4 i))

/-- A new key on P-256. The number is taken from half again as many octets as the order of the
group has, so that no value is noticeably more likely than another. -/
def generateEc? (seed : Bytes) : Option KeyPair :=
  .ec <$> EcKey.ofSecret? (stretched seed 0 2 % (P256.n - 1) + 1)

/-! ### Primes -/

/-- The primes that candidates are divided by, and the bases of the test. -/
def smallPrimes : List Nat :=
  (List.range 1000).filter fun n =>
    2 ≤ n && (List.range 32).all fun d => d < 2 || d = n || n % d != 0

/-- How often two divides a number, up to a bound, and what remains. -/
def oddPart : (bound : Nat) → Nat → Nat × Nat
  | 0, n => (0, n)
  | bound + 1, n =>
    if n % 2 = 0 then
      let (k, m) := oddPart bound (n / 2)
      (k + 1, m)
    else (0, n)

/-- Whether one of the first squares of `x` is `n - 1`. -/
def reachesMinusOne (n : Nat) : (squares : Nat) → Nat → Bool
  | 0, _ => false
  | squares + 1, x => x == n - 1 || reachesMinusOne n squares (x * x % n)

/-- Whether a base gives no proof that an odd number is composite. -/
def passes (n base : Nat) : Bool :=
  let (k, m) := oddPart n.log2 (n - 1)
  let x := Modular.pow n base m
  x == 1 || reachesMinusOne n k x

/-- Whether no small prime divides a large number and no small base proves it composite. -/
def isProbablePrime (n : Nat) : Bool :=
  smallPrimes.all (n % · != 0) && (smallPrimes.take 20).all (passes n)

/-- The first of the odd numbers from a start that is probably prime and whose predecessor is not a
multiple of the public exponent. -/
def findPrime? (exponent : Nat) : (tries : Nat) → Nat → Option Nat
  | 0, _ => none
  | tries + 1, n =>
    if (n - 1) % exponent ≠ 0 ∧ isProbablePrime n then some n else findPrime? exponent tries (n + 2)

/-- The public exponent of new keys, a prime. -/
def newExponent : Nat := 65537

/-- An odd number of 1024 bits, the first two of which are set. -/
def primeStart (seed : Bytes) (label : Nat) : Nat :=
  3 * Nat.pow 2 1022 + stretched seed label 32 % Nat.pow 2 1021 * 2 + 1

/-- A new RSA key with a modulus of 2048 bits. It is accepted like any other key. -/
def generateRsa? (seed : Bytes) : Option KeyPair := do
  let p ← findPrime? newExponent 20000 (primeStart seed 1)
  let q ← findPrime? newExponent 20000 (primeStart seed 2)
  let order := (p - 1) * (q - 1) / Nat.gcd (p - 1) (q - 1)
  let d ← Modular.inverse? order newExponent
  let coefficient ← Modular.inverse? p q
  let numbers : RsaNumbers := {
    modulus := p * q, publicExponent := newExponent, privateExponent := d
    primes := some { prime₁ := p, prime₂ := q }
    shortcut := some { exponent₁ := d % (p - 1), exponent₂ := d % (q - 1), coefficient } }
  if p = q then none else (PrivateKey.rsa (.ofNumbers numbers)).accepted.toOption

/-- A new key of a kind. -/
def generate? (alg : KeyAlgorithm) (seed : Bytes) : Option KeyPair :=
  match alg with
  | .ecdsaP256 => generateEc? seed
  | .rsa2048 => generateRsa? seed

end Acme.KeyPair
