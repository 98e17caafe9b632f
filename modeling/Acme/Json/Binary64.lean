/-!
# Binary floating point numbers

Numbers of the form `mantissa * 2 ^ exponent` with a mantissa below `2 ^ 53` and an exponent of at
least -1074, in exact arithmetic on natural numbers: rounding a fraction to the nearest of them,
products and quotients, and the decimal text of least length that reads back as the same number.
-/

namespace Acme.Json

/-- A number `mantissa * 2 ^ exponent`. A mantissa below `2 ^ 52` has the least exponent. -/
structure Binary64 where
  mantissa : Nat
  exponent : Int
  deriving DecidableEq, Repr

namespace Binary64

def zero : Binary64 := ⟨0, -1074⟩

/-- The quotient rounded to the nearest integer, a half to the even one. -/
def divHalfEven (num den : Nat) : Nat :=
  let q := num / den
  let twice := 2 * (num % den)
  if twice < den then q else if den < twice then q + 1 else q + q % 2

/-- A fraction multiplied by a power of a base, which may be negative. -/
def scale (base : Nat) (e : Int) (num den : Nat) : Nat × Nat :=
  if 0 ≤ e then (num * Nat.pow base e.toNat, den) else (num, den * Nat.pow base (-e).toNat)

/-- The greatest power of two that is at most a fraction. -/
def log2Floor (num den : Nat) : Int :=
  let l : Int := (num.log2 : Int) - (den.log2 : Int)
  let (a, b) := scale 2 (-l) num den
  if b ≤ a then l else l - 1

/-- The number nearest to a fraction, a tie going to the even mantissa; none beyond the greatest
number. -/
def round? (num den : Nat) : Option Binary64 :=
  if num = 0 then some zero
  else
    let e := max (-1074) (log2Floor num den - 52)
    let (a, b) := scale 2 (-e) num den
    let m := divHalfEven a b
    let x : Binary64 := if m = Nat.pow 2 53 then ⟨Nat.pow 2 52, e + 1⟩ else ⟨m, e⟩
    if x.exponent ≤ 971 then some x else none

def fraction (x : Binary64) : Nat × Nat := scale 2 x.exponent x.mantissa 1

/-- The product, rounded. -/
def mul? (x y : Binary64) : Option Binary64 :=
  round? (x.fraction.1 * y.fraction.1) (x.fraction.2 * y.fraction.2)

/-- The quotient, rounded. -/
def div? (x y : Binary64) : Option Binary64 :=
  round? (x.fraction.1 * y.fraction.2) (x.fraction.2 * y.fraction.1)

/-- The number nearest to a power of ten. -/
def powTen? (n : Nat) : Option Binary64 := round? (Nat.pow 10 n) 1

/-- A decimal: the significand is rounded first, then its product or quotient with a power of ten.
A quotient by more than the greatest power that has a number is taken in steps. -/
def ofDecimal? (significand : Nat) (exponent : Int) : Option Binary64 := do
  let s ← round? significand 1
  if 0 ≤ exponent then
    if exponent ≤ 308 then s.mul? (← powTen? exponent.toNat)
    else if s.mantissa = 0 then some zero
    else none
  else
    let steps := ((-exponent).toNat - 1) / 308
    let big ← powTen? 308
    let s ← (List.replicate (min steps 3) big).foldlM (fun s b => s.div? b) s
    if s.mantissa = 0 then some zero
    else s.div? (← powTen? ((-exponent).toNat - steps * 308))

/-! ### Text -/

/-- The least `n` from `n` on with `num * 10 ^ n ≥ den`, looking at most `fuel` steps ahead. -/
def leadingZeros (num den : Nat) : (fuel n : Nat) → Nat
  | 0, n => n
  | fuel + 1, n => if den ≤ num * Nat.pow 10 n then n else leadingZeros num den fuel (n + 1)

/-- The number of digits in front of the decimal point; not positive for a fraction below a
tenth. -/
def decimalPoint (num den : Nat) : Int :=
  if den ≤ num then ((Nat.toDigits 10 (num / den)).length : Int)
  else 1 - (leadingZeros num den 400 1 : Int)

/-- The decimal with `n` digits that lies nearest to a number and reads back as it: of the two
neighbours on that grid, the one that reads back, the nearer one if both do. -/
def withDigits? (x : Binary64) (n : Nat) : Option (Nat × Int) :=
  let (num, den) := x.fraction
  let unit := decimalPoint num den - n
  let (a, b) := scale 10 (-unit) num den
  let low := a / b
  let readsBack (c : Nat) : Bool :=
    let (p, q) := scale 10 unit c 1
    round? p q == some x
  let nearest := divHalfEven a b
  if readsBack nearest then some (nearest, unit)
  else if readsBack low then some (low, unit)
  else if readsBack (low + 1) then some (low + 1, unit)
  else none

/-- The decimal of least length that reads back as the number. -/
def shortest (x : Binary64) : Nat × Int :=
  ((List.range 17).findSome? fun n => x.withDigits? (n + 1)).getD (x.mantissa, x.exponent)

/-- Drops zeros at the end of a significand. -/
def trimZeros (significand : Nat) (exponent : Int) : (fuel : Nat) → Nat × Int
  | 0 => (significand, exponent)
  | fuel + 1 =>
    if significand ≠ 0 ∧ significand % 10 = 0 then trimZeros (significand / 10) (exponent + 1) fuel
    else (significand, exponent)

/-- The text of a number that is not negative: positional from a hundred-thousandth up to sixteen
digits before the point, always with a digit after the point; otherwise with an exponent and no
more than one digit before the point. -/
def text (x : Binary64) : String :=
  if x.mantissa = 0 then "0.0"
  else
    let (significand, exponent) := x.shortest
    let (significand, exponent) := trimZeros significand exponent 400
    let digits := Nat.toDigits 10 significand
    let point : Int := digits.length + exponent
    let zeros (n : Int) := List.replicate n.toNat '0'
    String.ofList <|
      if 0 ≤ exponent ∧ point ≤ 16 then digits ++ zeros exponent ++ ['.', '0']
      else if 0 < point ∧ point ≤ 16 then
        digits.take point.toNat ++ '.' :: digits.drop point.toNat
      else if -5 < point ∧ point ≤ 0 then ['0', '.'] ++ zeros (-point) ++ digits
      else
        let tail := 'e' :: (toString (point - 1)).toList
        digits.take 1 ++ (if digits.length = 1 then [] else '.' :: digits.drop 1) ++ tail

end Binary64

end Acme.Json
