import Acme.Crypto.P256
import Acme.Crypto.Sha256
import Acme.Der

/-!
# Signatures on P-256

Signatures of FIPS 186 on P-256 with SHA-256. The secret number that every signature needs is
derived from the key and the message (RFC 6979), so signing is a function of the two.

A signature is a pair of numbers below the order of the group. Certificates and signing requests
write it as a sequence of two integers, `toDer`; messages write the two numbers in 32 octets each,
`toBytes`.
-/

namespace Acme.Ecdsa

structure Signature where
  r : Nat
  s : Nat
  deriving DecidableEq, Repr

namespace Signature

/-- The octets of each number in messages. -/
def width : Nat := 32

/-- The form in messages, if both numbers have room. -/
def toBytes? (g : Signature) : Option Bytes :=
  if g.r < Bytes.capacity width ∧ g.s < Bytes.capacity width then
    some (Bytes.ofNatWidth width g.r ++ Bytes.ofNatWidth width g.s)
  else none

/-- Reads the form in messages. -/
def ofBytes? (b : Bytes) : Option Signature :=
  if b.length = 2 * width then some ⟨Bytes.toNat (b.take width), Bytes.toNat (b.drop width)⟩
  else none

/-- The form in certificates. -/
def toDer (g : Signature) : Bytes := Der.sequence [Der.nat g.r, Der.nat g.s]

/-- Reads the form in certificates. -/
def ofDer? (b : Bytes) : Option Signature := do
  match ← Der.leadingSequence? b with
  | [r, s] => return ⟨← r.nat?, ← s.nat?⟩
  | _ => none

end Signature

/-- The number that a message is signed as. -/
def digest (message : Bytes) : Nat := Bytes.toNat (Sha256.hash message)

/-! ### Secret numbers -/

/-- The state from which secret numbers are derived: a key and a value. -/
structure Generator where
  key : Bytes
  value : Bytes

namespace Generator

def mix (g : Generator) (tag : UInt8) (data : Bytes) : Generator :=
  let key := Sha256.hmac g.key (g.value ++ tag :: data)
  ⟨key, Sha256.hmac key g.value⟩

/-- The state for a key and the number that a message is signed as. -/
def start (d z : Nat) : Generator :=
  let data := Bytes.ofNatWidth 32 d ++ Bytes.ofNatWidth 32 (z % P256.n)
  let fresh : Generator := ⟨List.replicate 32 0, List.replicate 32 1⟩
  (fresh.mix 0 data).mix 1 data

def next (g : Generator) : Generator := { g with value := Sha256.hmac g.key g.value }

end Generator

/-! ### Signing -/

/-- The signature with a secret number, if the number is good for one. -/
def signWith? (d z k : Nat) : Option Signature := do
  let q ← P256.generatorMultiple? k
  let inverse ← Modular.inverse? P256.n k
  let r := q.x.val % P256.n
  let s := inverse * (z + r * d) % P256.n
  if 0 < k ∧ k < P256.n ∧ r ≠ 0 ∧ s ≠ 0 then some ⟨r, s⟩ else none

/-- The signature with the first good one of `tries` secret numbers. -/
def search (d z : Nat) : (tries : Nat) → Generator → Option Signature
  | 0, _ => none
  | tries + 1, g =>
    let g := g.next
    match signWith? d z (Bytes.toNat g.value) with
    | some signature => some signature
    | none => search d z tries (g.mix 0 [])

/-- The signature of a message. A secret number is no good with a chance of less than one in 2³²,
so it is safe to give up after a few. -/
def sign? (d : Nat) (message : Bytes) : Option Signature :=
  let z := digest message
  search d z 64 (.start d z)

/-- Whether a signature fits a message and a public key, which may be the point at infinity. -/
def verify (q : Option P256.Point) (message : Bytes) (g : Signature) : Bool :=
  let inRange (x : Nat) : Bool := 0 < x && x < P256.n
  if !inRange g.r || !inRange g.s then false
  else
    match Modular.inverse? P256.n g.s with
    | none => false
    | some w =>
      let u := (P256.Triple.ofPoint P256.generator).multiple (digest message * w % P256.n)
      let v := ((q.map P256.Triple.ofPoint).getD .infinity).multiple (g.r * w % P256.n)
      match (u.add v).toPoint? with
      | some t => t.x.val % P256.n == g.r
      | none => false

end Acme.Ecdsa
