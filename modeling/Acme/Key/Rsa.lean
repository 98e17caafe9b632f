import Acme.Crypto.Rsa
import Acme.Key.Algorithm

/-!
# Private RSA keys

A private key in the form of RFC 8017: a version and the key's numbers. The version tells whether
there are more than two primes; readers go by the presence of the primes instead, so a key keeps
the version that it was read with.

A key that was taken out of a key block keeps all its primes inside blocks. By itself it has the
right version and not more than eight primes besides the first two.
-/

namespace Acme

/-- The version of keys with more than two primes. -/
def RsaKey.manyPrimes : Int32 := 1

structure RsaKey where
  numbers : RsaNumbers
  /-- Further primes, each with its exponent and coefficient. -/
  others : List (Nat × Nat × Nat)
  version : Int32
  /-- The version does not tell of primes that are not there. -/
  versionFits : version = RsaKey.manyPrimes → others ≠ []
  /-- Whether the key was taken out of a key block. -/
  fromBlock : Bool
  deriving DecidableEq, Repr

namespace RsaKey

/-- The version that tells the number of primes rightly. -/
def rightVersion (others : List (Nat × Nat × Nat)) : Int32 := if others = [] then 0 else manyPrimes

theorem rightVersion_fits {others : List (Nat × Nat × Nat)} (h : rightVersion others = manyPrimes) :
    others ≠ [] := by
  rintro rfl
  exact absurd h (by decide)

/-- A key with two primes. -/
def ofNumbers (numbers : RsaNumbers) : RsaKey :=
  { numbers, others := [], version := rightVersion [], versionFits := rightVersion_fits,
    fromBlock := false }

/-! ### Reading -/

/-- A further prime. -/
def other? (i : Der.Item) : Option (Nat × Nat × Nat) := do
  match ← (← i.sequence?).mapM Der.Item.nat? with
  | [prime, exponent, coefficient] => some (prime, exponent, coefficient)
  | _ => none

/-- The further primes, which are all there is after the other numbers. -/
def others? : List Der.Item → Option (List (Nat × Nat × Nat))
  | [] => some []
  | [i] => do
    let others ← (← i.sequence?).mapM other?
    if others = [] then none else some others
  | _ => none

/-- The key at the front of an octet string. -/
def ofDer? (b : Bytes) : Option RsaKey := do
  match ← Der.leadingSequence? b with
  | version :: n :: e :: d :: p :: q :: dp :: dq :: qi :: rest =>
    let version ← version.version?
    let others ← others? rest
    let numbers : RsaNumbers := {
      modulus := ← n.nat?, publicExponent := ← e.nat?, privateExponent := ← d.nat?
      primes := some { prime₁ := ← p.nat?, prime₂ := ← q.nat? }
      shortcut := some {
        exponent₁ := ← dp.nat?, exponent₂ := ← dq.nat?, coefficient := ← qi.nat? } }
    if versionFits : version = manyPrimes → others ≠ [] then
      return { numbers, others, version, versionFits, fromBlock := false }
    else none
  | _ => none

/-! ### Writing -/

/-- How many further primes a key keeps when it is written by itself after it was taken out of a
block. -/
def keptPrimes : Nat := 8

/-- The octets of numbers with further primes. Only keys with all numbers have any. -/
def encode (k : RsaNumbers) (others : List (Nat × Nat × Nat)) (version : Int32) :
    Except KeyError Bytes :=
  match k.primes, k.shortcut with
  | some p, some c =>
    let further :=
      if others = [] then []
      else
        [Der.sequence (others.map fun (prime, exponent, coefficient) =>
          Der.sequence [Der.nat prime, Der.nat exponent, Der.nat coefficient])]
    .ok (Der.sequence ([Der.int version.toInt, Der.nat k.modulus, Der.nat k.publicExponent,
      Der.nat k.privateExponent, Der.nat p.prime₁, Der.nat p.prime₂, Der.nat c.exponent₁,
      Der.nat c.exponent₂, Der.nat c.coefficient] ++ further))
  | _, _ => .error .unwritable

/-- The further primes of the key by itself. -/
def ownOthers (k : RsaKey) : List (Nat × Nat × Nat) :=
  if k.fromBlock then k.others.take keptPrimes else k.others

/-- The version of the key by itself. -/
def ownVersion (k : RsaKey) : Int32 :=
  if k.fromBlock then rightVersion k.ownOthers else k.version

/-- The octets of the key by itself. -/
def toDer (k : RsaKey) : Except KeyError Bytes := encode k.numbers k.ownOthers k.ownVersion

/-- The octets of the key inside a key block. -/
def toBlock (k : RsaKey) : Except KeyError Bytes := encode k.numbers k.others k.version

/-- The key after it was taken out of its block. -/
def unwrapped (k : RsaKey) : RsaKey := { k with fromBlock := true }

end RsaKey

end Acme
