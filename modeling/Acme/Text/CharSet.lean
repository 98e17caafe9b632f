/-!
# Sets of characters

A set of characters is written as the ascending list of the code points at which membership
changes: the first bound opens the first range, the second closes it, and so on. A character is a
member when the number of bounds up to its code point is odd.
-/

namespace Acme.Text

/-- A set of characters, by the code points at which membership changes. -/
structure CharSet where
  bounds : List Nat

namespace CharSet

/-- Whether an odd number of leading bounds is at most `n`. -/
def inside (n : Nat) : List Nat → Bool
  | [] => false
  | b :: rest => if b ≤ n then !inside n rest else false

def mem (s : CharSet) (c : Char) : Bool := inside c.toNat s.bounds

end CharSet

end Acme.Text
