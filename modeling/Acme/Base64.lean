import Acme.Bytes

/-!
# Base64

The two written forms of octet strings that the protocol uses: the standard one, always padded to
whole groups of four symbols, and the URL-safe one, never padded. Three octets are four symbols of
six bits each; one or two octets left over are two or three symbols whose spare bits are zero.

Reading accepts only what writing produces, except that `ofUrl` first drops every `=` at the end
of its text. All else is refused with the octet, the offset or the length at fault.
-/

namespace Acme.Base64

/-- The alphabets: they differ in the symbols for 62 and 63, and in whether the written form is
padded. -/
inductive Alphabet
  | standard
  | urlSafe
  deriving DecidableEq, Repr

/-- Why a text is not base64. Offsets count octets of the text. -/
inductive DecodeError
  | invalidByte (offset : Nat) (byte : UInt8)
  | invalidLength (length : Nat)
  | invalidLastSymbol (offset : Nat) (byte : UInt8)
  | invalidPadding
  deriving DecidableEq, Repr

def DecodeError.message : DecodeError → String
  | .invalidByte offset byte => "Invalid symbol " ++ toString byte ++ ", offset " ++ toString offset ++ "."
  | .invalidLength length => "Invalid input length: " ++ toString length
  | .invalidLastSymbol offset byte =>
    "Invalid last symbol " ++ toString byte ++ ", offset " ++ toString offset ++ "."
  | .invalidPadding => "Invalid padding"

def pad : UInt8 := 61

namespace Alphabet

def plus : Alphabet → UInt8
  | standard => 43
  | urlSafe => 45

def slash : Alphabet → UInt8
  | standard => 47
  | urlSafe => 95

/-- The symbol for the six low bits of a number. -/
def symbol (a : Alphabet) (n : Nat) : UInt8 :=
  let d := n % 64
  if d < 26 then (65 + d).toUInt8
  else if d < 52 then (71 + d).toUInt8
  else if d < 62 then (d - 4).toUInt8
  else if d = 62 then a.plus
  else a.slash

/-- The six bits that a symbol stands for. -/
def value? (a : Alphabet) (s : UInt8) : Option Nat :=
  if 65 ≤ s ∧ s ≤ 90 then some (s.toNat - 65)
  else if 97 ≤ s ∧ s ≤ 122 then some (s.toNat - 71)
  else if 48 ≤ s ∧ s ≤ 57 then some (s.toNat + 4)
  else if s = a.plus then some 62
  else if s = a.slash then some 63
  else none

/-- The padding that completes a group of `n` symbols. -/
def padding : Alphabet → Nat → Bytes
  | standard, n => List.replicate (4 - n) pad
  | urlSafe, _ => []

end Alphabet

/-! ### Writing -/

/-- The symbols of an octet string. -/
def encode (a : Alphabet) : Bytes → Bytes
  | x :: y :: z :: rest =>
    let n := Bytes.toNat [x, y, z]
    a.symbol (n / 262144) :: a.symbol (n / 4096) :: a.symbol (n / 64) :: a.symbol n :: encode a rest
  | [x, y] =>
    let n := Bytes.toNat [x, y] * 4
    [a.symbol (n / 4096), a.symbol (n / 64), a.symbol n] ++ a.padding 3
  | [x] =>
    let n := Bytes.toNat [x] * 16
    [a.symbol (n / 64), a.symbol n] ++ a.padding 2
  | [] => []

/-- The standard form, padded. -/
def toStandard (b : Bytes) : String := Bytes.asciiText (encode .standard b)

/-- The URL-safe form, without padding. -/
def toUrl (b : Bytes) : String := Bytes.asciiText (encode .urlSafe b)

/-! ### Reading -/

/-- The bits of symbols, the first symbol at `offset`. -/
def values (a : Alphabet) : (offset : Nat) → Bytes → Except DecodeError (List Nat)
  | _, [] => .ok []
  | offset, s :: rest =>
    match a.value? s with
    | none => .error (.invalidByte offset s)
    | some v => (v :: ·) <$> values a (offset + 1) rest

/-- The number that six-bit digits write, the most significant first. -/
def digits (vs : List Nat) : Nat := vs.foldl (fun n v => n * 64 + v) 0

/-- The octets of the last group, which has at most four symbols and starts at `offset`: at least
two symbols, then nothing but padding, the number of both as the alphabet wants it, and no bits
set beyond the last whole octet. -/
def decodeLast (a : Alphabet) (offset : Nat) (group : Bytes) : Except DecodeError Bytes := do
  let symbols := group.takeWhile (· != pad)
  let padding := group.dropWhile (· != pad)
  let vs ← values a offset symbols
  let count := symbols.length
  if !padding.isEmpty && (count < 2 || padding.any (· != pad)) then
    throw (.invalidByte (offset + count) pad)
  if group.isEmpty then return []
  if count < 2 then throw (.invalidLength (offset + count))
  match a with
  | .standard => if group.length ≠ 4 then throw .invalidPadding
  | .urlSafe => if !padding.isEmpty then throw .invalidPadding
  let octets := count * 6 / 8
  let spare := Nat.pow 2 (count * 6 % 8)
  let n := digits vs
  if n % spare ≠ 0 then
    throw (.invalidLastSymbol (offset + count - 1) (symbols.getLastD 0))
  return Bytes.ofNatWidth octets (n / spare)

/-- The octets of the groups from `offset` on. Every group but the last has four symbols and no
padding. -/
def decodeGroups (a : Alphabet) : (offset : Nat) → Bytes → Except DecodeError Bytes
  | offset, s₁ :: s₂ :: s₃ :: s₄ :: next :: rest => do
    let vs ← values a offset [s₁, s₂, s₃, s₄]
    return Bytes.ofNatWidth 3 (digits vs) ++ (← decodeGroups a (offset + 4) (next :: rest))
  | offset, group => decodeLast a offset group

/-- The octets that symbols stand for. A single symbol beyond whole groups is reported before
anything else if it belongs to neither the alphabet nor the padding. -/
def decode (a : Alphabet) (symbols : Bytes) : Except DecodeError Bytes :=
  match symbols.getLast? with
  | some s =>
    if symbols.length % 4 = 1 ∧ s ≠ pad ∧ a.value? s = none then
      .error (.invalidByte (symbols.length - 1) s)
    else decodeGroups a 0 symbols
  | none => decodeGroups a 0 symbols

/-- Reads the standard form, whose padding has to be complete. -/
def ofStandard (text : String) : Except DecodeError Bytes := decode .standard (Bytes.ofText text)

/-- Drops the padding at the end of a text. -/
def dropPadding (symbols : Bytes) : Bytes := (symbols.reverse.dropWhile (· == pad)).reverse

/-- Reads the URL-safe form; any padding at the end is dropped first. -/
def ofUrl (text : String) : Except DecodeError Bytes :=
  decode .urlSafe (dropPadding (Bytes.ofText text))

end Acme.Base64
