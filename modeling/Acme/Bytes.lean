/-!
# Octet strings

Everything that travels or is signed is a list of octets. This module relates octet strings to

* text: `ofText` writes UTF-8, and `text?` reads it back when it is well formed;
* numbers: `toNat` reads big-endian, `ofNat` writes the shortest form and `ofNatWidth` a form of
  fixed width, with zeros in front;
* the printed form in hexadecimal digits.

The main statements are the round trips `text?_ofText`, `toNat_ofNatWidth` and `toNat_ofNat`.
-/

namespace Acme

/-- A string of octets. -/
abbrev Bytes := List UInt8

namespace Bytes

/-! ### Text -/

def ofText (s : String) : Bytes := s.toUTF8.data.toList

/-- The text that these octets are the UTF-8 form of. -/
def text? (b : Bytes) : Option String := String.fromUTF8? ⟨b.toArray⟩

/-- The text whose characters have these octets as their code points. It is the text that the
octets are the UTF-8 form of when all of them are below 128. -/
def asciiText (b : Bytes) : String := String.ofList (b.map fun x => Char.ofNat x.toNat)

/-- Reading back what was written. -/
theorem text?_ofText (s : String) : text? (ofText s) = some s := by
  have h : (⟨(ofText s).toArray⟩ : ByteArray) = s.toByteArray := by
    simp [ofText, String.toUTF8]
  simp only [text?, h, String.fromUTF8?]
  rw [dif_pos s.isValidUTF8]
  rfl

/-! ### Numbers -/

/-- The number that the octets write in base 256, the most significant octet first. -/
def toNat (b : Bytes) : Nat := b.foldl (fun n x => n * 256 + x.toNat) 0

/-- The shortest big-endian form of a number; zero has no octets. -/
def ofNat (n : Nat) : Bytes :=
  if n = 0 then [] else ofNat (n / 256) ++ [n.toUInt8]
termination_by n
decreasing_by exact Nat.div_lt_self (by omega) (by omega)

/-- The `width` low octets of a number, the most significant first. -/
def ofNatWidth : (width n : Nat) → Bytes
  | 0, _ => []
  | width + 1, n => ofNatWidth width (n / 256) ++ [n.toUInt8]

/-- How many numbers have room in a width. -/
def capacity (width : Nat) : Nat := Nat.pow 256 width

@[simp] theorem toNat_append_singleton (b : Bytes) (x : UInt8) :
    toNat (b ++ [x]) = toNat b * 256 + x.toNat := by
  simp [toNat]

theorem capacity_succ (width : Nat) : capacity (width + 1) = 256 * capacity width :=
  Nat.mul_comm _ _

theorem length_ofNatWidth (width n : Nat) : (ofNatWidth width n).length = width := by
  induction width generalizing n with
  | zero => rfl
  | succ width ih => simp [ofNatWidth, ih]

/-- A fixed width keeps the number modulo the number of values that it has room for. -/
theorem toNat_ofNatWidth (width n : Nat) : toNat (ofNatWidth width n) = n % capacity width := by
  induction width generalizing n with
  | zero => simp [ofNatWidth, toNat, capacity, Nat.mod_one]
  | succ width ih =>
    rw [ofNatWidth, toNat_append_singleton, ih, capacity_succ, Nat.mod_mul, Nat.toUInt8,
      UInt8.toNat_ofNat']
    omega

theorem toNat_ofNat (n : Nat) : toNat (ofNat n) = n := by
  induction n using Nat.strongRecOn with
  | ind n ih =>
    rw [ofNat]
    split
    · simp [toNat, *]
    · rw [toNat_append_singleton, ih (n / 256) (Nat.div_lt_self (by omega) (by omega)),
        Nat.toUInt8, UInt8.toNat_ofNat']
      omega

/-- A number below a power of 256 has at most that many octets. -/
theorem length_ofNat_le {n k : Nat} (h : n < capacity k) : (ofNat n).length ≤ k := by
  induction k generalizing n with
  | zero => simp [ofNat, show n = 0 by simpa [capacity] using h]
  | succ k ih =>
    rw [ofNat]
    split
    · simp
    · have : n / 256 < capacity k := by
        rw [capacity_succ] at h
        exact Nat.div_lt_of_lt_mul h
      simpa using ih this

/-! ### Hexadecimal digits -/

/-- The digit of a number below sixteen, in lower case. -/
def hexDigit (n : Nat) : Char :=
  if n < 10 then Char.ofNat (48 + n) else Char.ofNat (87 + n)

/-- The value of a hexadecimal digit of either case. -/
def hexValue? (c : Char) : Option Nat :=
  if '0' ≤ c ∧ c ≤ '9' then some (c.toNat - 48)
  else if 'a' ≤ c ∧ c ≤ 'f' then some (c.toNat - 87)
  else if 'A' ≤ c ∧ c ≤ 'F' then some (c.toNat - 55)
  else none

/-- Two lower-case digits for every octet. -/
def hex (b : Bytes) : String :=
  String.ofList (b.flatMap fun x => [hexDigit (x.toNat / 16), hexDigit (x.toNat % 16)])

/-- The octets that pairs of hexadecimal digits stand for. -/
def ofHexDigits? : List Char → Option Bytes
  | [] => some []
  | [_] => none
  | hi :: lo :: rest => do
    let h ← hexValue? hi
    let l ← hexValue? lo
    return (h * 16 + l).toUInt8 :: (← ofHexDigits? rest)

/-- The octets written by `hex`. -/
def ofHex? (s : String) : Option Bytes := ofHexDigits? s.toList

end Bytes

end Acme
