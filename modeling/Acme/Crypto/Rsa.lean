import Acme.Crypto.Modular
import Acme.Crypto.Sha256
import Acme.Der

/-!
# RSA signatures

Signatures of RFC 8017 with SHA-256 and the first kind of padding. A message is turned into a
number that is as long as the modulus and ends in the message's digest; the signature is the root
of that number, and everyone can raise it to the public exponent again.

The root is taken modulo each prime on its own, which is faster, and checked; only if the primes are
not known or the parts of the key do not fit together it is taken with the private exponent.
-/

namespace Acme

/-- The two primes of a modulus. -/
structure RsaPrimes where
  prime₁ : Nat
  prime₂ : Nat
  deriving DecidableEq, Repr

/-- What speeds up taking roots with the two primes: for each the exponent, and the inverse of the
second modulo the first. -/
structure RsaShortcut where
  exponent₁ : Nat
  exponent₂ : Nat
  coefficient : Nat
  deriving DecidableEq, Repr

/-- The numbers of a key. A program that puts a key together may leave out all but the first three. -/
structure RsaNumbers where
  modulus : Nat
  publicExponent : Nat
  privateExponent : Nat
  primes : Option RsaPrimes
  shortcut : Option RsaShortcut
  deriving DecidableEq, Repr

namespace RsaNumbers

/-- How many octets the modulus has. -/
def size (k : RsaNumbers) : Nat := (Bytes.ofNat k.modulus).length

def raised (k : RsaNumbers) (m : Nat) : Nat := Modular.pow k.modulus m k.publicExponent

/-- The root of a number, put together from those modulo the two primes. -/
def rootByPrimes (k : RsaPrimes) (c : RsaShortcut) (m : Nat) : Nat :=
  let m₁ := Modular.pow k.prime₁ m c.exponent₁
  let m₂ := Modular.pow k.prime₂ m c.exponent₂
  let h := c.coefficient * (m₁ + k.prime₁ - m₂ % k.prime₁) % k.prime₁
  m₂ + h * k.prime₂

def root (k : RsaNumbers) (m : Nat) : Nat :=
  let s :=
    match k.primes, k.shortcut with
    | some p, some c => if 0 < p.prime₁ ∧ 0 < p.prime₂ then rootByPrimes p c m else 0
    | _, _ => 0
  if s < k.modulus ∧ k.raised s = m then s else Modular.pow k.modulus m k.privateExponent

/-- The digest of a message together with the name of the hash function. -/
def digestInfo (message : Bytes) : Bytes :=
  Der.sequence [Der.sequence [Der.oid [2, 16, 840, 1, 101, 3, 4, 2, 1], Der.null],
    Der.octetString (Sha256.hash message)]

/-- The padded digest of a message, with as many octets as the modulus. -/
def padded (k : RsaNumbers) (message : Bytes) : Bytes :=
  let info := digestInfo message
  [0, 1] ++ List.replicate (k.size - 3 - info.length) 255 ++ 0 :: info

def sign (k : RsaNumbers) (message : Bytes) : Bytes :=
  Bytes.ofNatWidth k.size (k.root (Bytes.toNat (k.padded message)))

def verify (k : RsaNumbers) (message signature : Bytes) : Bool :=
  signature.length == k.size && Bytes.toNat signature < k.modulus
    && k.raised (Bytes.toNat signature) == Bytes.toNat (k.padded message)

end RsaNumbers

end Acme
