import Acme.Key.Rsa
import Acme.Proofs.Der

/-!
# RSA keys are read as they were written

A key can be written if it has all its numbers (`RsaKey.encode_eq_ok_iff`), and they are read as they
were written if their octets are not too long for any length to be written (`RsaKey.ofDer?_encode`).
A key that came in a block keeps more of its primes inside blocks than by itself, so its own octets
tell another key than those inside a block (`RsaKey.settled`, `RsaKey.boxed`).
-/

namespace Acme

open Der

namespace RsaNumbers

/-- The numbers that every key has which can be written, in the order in which they are written. -/
def fixed (k : RsaNumbers) (p : RsaPrimes) (c : RsaShortcut) : List Nat :=
  [k.modulus, k.publicExponent, k.privateExponent, p.prime₁, p.prime₂, c.exponent₁, c.exponent₂,
    c.coefficient]

/-! ### The values of a key -/

/-- The value that a number is written as. -/
def numberItem (n : Nat) : Item := ⟨Tag.integer, natContent n⟩

/-- The value of a further prime. -/
def primeItem : Nat × Nat × Nat → Item
  | (p, exponent, coefficient) =>
    ⟨Tag.sequence, [numberItem p, numberItem exponent, numberItem coefficient].flatMap Item.bytes⟩

/-- The value of the further primes, if there are any. -/
def primeItems (others : List (Nat × Nat × Nat)) : List Item :=
  if others = [] then [] else [⟨Tag.sequence, (others.map primeItem).flatMap Item.bytes⟩]

def items (k : RsaNumbers) (p : RsaPrimes) (c : RsaShortcut) (others : List (Nat × Nat × Nat))
    (version : Int32) : List Item :=
  ⟨Tag.integer, intContent version.toInt⟩ :: (k.fixed p c).map numberItem ++ primeItems others

end RsaNumbers

namespace RsaKey

open RsaNumbers

variable {k : RsaNumbers} {others : List (Nat × Nat × Nat)} {version : Int32} {b : Bytes}

/-! ### Writing -/

/-- A key can be written exactly if it has all its numbers. -/
theorem encode_eq_ok_iff :
    encode k others version = .ok b
      ↔ ∃ p c, k.primes = some p ∧ k.shortcut = some c
        ∧ b = Der.encode Tag.sequence ((k.items p c others version).flatMap Item.bytes) := by
  have hothers : (others.map fun (p, exponent, coefficient) =>
        Der.sequence [Der.nat p, Der.nat exponent, Der.nat coefficient]).flatten
      = (others.map primeItem).flatMap Item.bytes := by
    rw [List.flatMap_def, List.map_map]
    rfl
  -- written as values, one after another
  have hbytes (p : RsaPrimes) (c : RsaShortcut) :
      Der.sequence ([Der.int version.toInt, Der.nat k.modulus, Der.nat k.publicExponent,
          Der.nat k.privateExponent, Der.nat p.prime₁, Der.nat p.prime₂, Der.nat c.exponent₁,
          Der.nat c.exponent₂, Der.nat c.coefficient]
        ++ if others = [] then [] else [Der.sequence (others.map fun (p, exponent, coefficient) =>
            Der.sequence [Der.nat p, Der.nat exponent, Der.nat coefficient])])
        = Der.encode Tag.sequence ((k.items p c others version).flatMap Item.bytes) := by
    unfold items primeItems
    split
    · rfl
    · rw [← hothers]
      rfl
  unfold encode
  constructor
  · intro h
    split at h
    · rename_i p c hp hc
      cases h
      exact ⟨p, c, hp, hc, hbytes p c⟩
    · cases h
  · rintro ⟨p, c, hp, hc, rfl⟩
    rw [hp, hc]
    exact congrArg Except.ok (hbytes p c)

theorem encode_cases :
    (∃ b, encode k others version = .ok b) ∨ encode k others version = .error .unwritable := by
  unfold encode
  split
  · exact .inl ⟨_, rfl⟩
  · exact .inr rfl

/-! ### Reading what was written -/

theorem other?_primeItem {o : Nat × Nat × Nat} (h : (primeItem o).content.length < Bytes.capacity 127) :
    other? (primeItem o) = some o := by
  obtain ⟨p, exponent, coefficient⟩ := o
  have hthree : (primeItem (p, exponent, coefficient)).sequence?
      = some [numberItem p, numberItem exponent, numberItem coefficient] := sequence?_flatMap h
  rw [other?, hthree]
  simp [numberItem, nat?_natContent]

theorem others?_primeItems
    (h : ((primeItems others).flatMap Item.bytes).length < Bytes.capacity 127) :
    others? (primeItems others) = some others := by
  unfold primeItems at h ⊢
  split
  · rename_i hnone
    rw [hnone]
    rfl
  · rename_i hsome
    -- one value that holds all further primes, each a value that holds three numbers
    rw [if_neg hsome, List.flatMap_singleton] at h
    have hroom := Nat.lt_trans (Item.length_content_lt _) h
    have hall : (others.map primeItem).mapM other? = some others := by
      rw [mapM_eq_some_iff, List.map_map]
      refine List.map_congr_left fun o ho => ?_
      have hshort := length_content_lt_of_mem (List.mem_map_of_mem (f := primeItem) ho)
      exact other?_primeItem (Nat.lt_trans hshort hroom)
    simp [others?, sequence?_flatMap hroom, hall, hsome]

/-- The values of a key stand in its octets, so these are longer. -/
theorem length_items_lt {p : RsaPrimes} {c : RsaShortcut}
    (h : (Der.encode Tag.sequence ((k.items p c others version).flatMap Item.bytes)).length
      < Bytes.capacity 127) :
    ((k.items p c others version).flatMap Item.bytes).length < Bytes.capacity 127 :=
  Nat.lt_trans (Item.length_content_lt ⟨Tag.sequence, _⟩) h

/-- What was written is read, if its length could be written at all. -/
theorem ofDer?_encode (fits : version = manyPrimes → others ≠ [])
    (h : encode k others version = .ok b) (hb : b.length < Bytes.capacity 127) :
    ofDer? b = some ⟨k, others, version, fits, false⟩ := by
  obtain ⟨p, c, hp, hc, rfl⟩ := encode_eq_ok_iff.mp h
  have hitems := length_items_lt hb
  have hothers : others? (primeItems others) = some others := by
    refine others?_primeItems (Nat.lt_of_le_of_lt ?_ hitems)
    rw [items, List.flatMap_append, List.length_append]
    exact Nat.le_add_left _ _
  have hnat (n : Nat) : (numberItem n).nat? = some n := nat?_natContent n
  obtain ⟨modulus, publicExponent, privateExponent, primes, shortcut⟩ := k
  obtain rfl : primes = some p := hp
  obtain rfl : shortcut = some c := hc
  rw [ofDer?, leadingSequence?_encode hitems]
  simp [items, fixed, version?_intContent, hothers, hnat, dif_pos fits]

/-! ### What octets tell of a key -/

theorem ownVersion_fits (k : RsaKey) (h : k.ownVersion = manyPrimes) : k.ownOthers ≠ [] := by
  unfold ownVersion at h
  split at h
  · exact rightVersion_fits h
  · rename_i hblock
    rw [ownOthers, if_neg hblock]
    exact k.versionFits h

/-- The key as its own octets tell it. -/
def settled (k : RsaKey) : RsaKey :=
  { k with others := k.ownOthers, version := k.ownVersion, versionFits := k.ownVersion_fits,
           fromBlock := false }

/-- The key as its octets inside a block tell it. -/
def boxed (k : RsaKey) : RsaKey := { k with fromBlock := false }

/-- The octets of a key by itself are read as the key. -/
theorem ofDer?_toDer {k : RsaKey} (h : k.toDer = .ok b) (hb : b.length < Bytes.capacity 127) :
    ofDer? b = some k.settled :=
  ofDer?_encode k.ownVersion_fits h hb

theorem ofDer?_toBlock {k : RsaKey} (h : k.toBlock = .ok b) (hb : b.length < Bytes.capacity 127) :
    ofDer? b = some k.boxed :=
  ofDer?_encode k.versionFits h hb

end RsaKey

end Acme
