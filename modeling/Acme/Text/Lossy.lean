import Acme.Bytes

/-!
# Reading UTF-8 that may be broken

`lossy` reads any octet string as text. Where the octets stop being well-formed UTF-8 it puts one
replacement character for the longest run that could still have begun a character, and goes on
after that run.
-/

namespace Acme.Text

/-- The ranges that the octets after a first octet have to lie in, one after another. An octet
that cannot come first has none. -/
def followers (first : UInt8) : List (UInt8 × UInt8) :=
  let tail := (0x80, 0xbf)
  if 0xc2 ≤ first ∧ first ≤ 0xdf then [tail]
  else if first = 0xe0 then [(0xa0, 0xbf), tail]
  else if first = 0xed then [(0x80, 0x9f), tail]
  else if 0xe1 ≤ first ∧ first ≤ 0xef then [tail, tail]
  else if first = 0xf0 then [(0x90, 0xbf), tail, tail]
  else if first = 0xf4 then [(0x80, 0x8f), tail, tail]
  else if 0xf1 ≤ first ∧ first ≤ 0xf3 then [tail, tail, tail]
  else []

/-- How many of the leading octets lie in their ranges. -/
def within : List (UInt8 × UInt8) → Bytes → Nat
  | (low, high) :: ranges, x :: rest => if low ≤ x ∧ x ≤ high then within ranges rest + 1 else 0
  | _, _ => 0

/-- The code point that a first octet and its followers write. -/
def codePoint (first : UInt8) (tail : Bytes) : Nat :=
  let lead := first.toNat % Nat.pow 2 (6 - tail.length)
  tail.foldl (fun n x => n * 64 + x.toNat % 64) lead

/-- The characters of an octet string. -/
def lossyChars : Bytes → List Char
  | [] => []
  | first :: rest =>
    if first < 0x80 then Char.ofNat first.toNat :: lossyChars rest
    else
      let ranges := followers first
      let n := within ranges rest
      let c :=
        if ranges ≠ [] ∧ n = ranges.length then Char.ofNat (codePoint first (rest.take n))
        else '\ufffd'
      c :: lossyChars (rest.drop n)
termination_by b => b.length
decreasing_by all_goals simp; try omega

def lossy (b : Bytes) : String := String.ofList (lossyChars b)

end Acme.Text
