import Acme.Bytes
import Acme.Crypto.Modular

/-!
# The curve P-256

The points with `y² = x³ - 3x + b` over the field of the prime `p`, together with a point at
infinity, are a group of the prime order `n`. A point is given by two field elements; sums are
computed on triples `(X : Y : Z)` that stand for `(X/Z², Y/Z³)`, so that only the last step divides.

A point is written in one of three forms, which the first octet tells apart: both coordinates, the
first and the parity of the second, or both with the parity.
-/

namespace Acme.P256

/-- The prime of the field. -/
def p : Nat := 0xffffffff00000001000000000000000000000000ffffffffffffffffffffffff

/-- The order of the group. -/
def n : Nat := 0xffffffff00000000ffffffffffffffffbce6faada7179e84f3b9cac2fc632551

instance : @NeZero Nat Zero.ofOfNat0 p := ⟨by decide⟩

abbrev Field := Fin p

def a : Field := Fin.ofNat p (p - 3)

/-- The constant coefficient. -/
def b : Field :=
  Fin.ofNat p 0x5ac635d8aa3a93e7b3ebbd55769886bc651d06b0cc53b0f63bce3c3e27d2604b

def power (x : Field) (e : Nat) : Field := Fin.ofNat p (Modular.pow p x.val e)

/-- The inverse of a field element; that of zero is zero. -/
def inverse (x : Field) : Field := Fin.ofNat p ((Modular.inverse? p x.val).getD 0)

/-- A point other than the one at infinity, given by its coordinates. -/
structure Point where
  x : Field
  y : Field
  deriving DecidableEq, Repr

/-- The right side of the curve's equation. -/
def rightSide (x : Field) : Field := x * x * x + a * x + b

/-- Whether the coordinates are those of a point on the curve. -/
def Point.onCurve (q : Point) : Bool := q.y * q.y == rightSide q.x

/-- A point whose coordinates are those of a point on the curve. -/
abbrev CurvePoint : Type := { q : Point // q.onCurve }

def Point.checked? (q : Point) : Option CurvePoint := if h : q.onCurve then some ⟨q, h⟩ else none

def generator : Point where
  x := Fin.ofNat p 0x6b17d1f2e12c4247f8bce6e563a440f277037d812deb33a0f4a13945d898c296
  y := Fin.ofNat p 0x4fe342e2fe1a7f9b8ee7eb4a7c0f9e162bce33576b315ececbb6406837bf51f5

/-! ### The group -/

/-- A point by three coordinates. It is the one at infinity if the last is zero. -/
structure Triple where
  x : Field
  y : Field
  z : Field

namespace Triple

def infinity : Triple := ⟨1, 1, 0⟩

def ofPoint (q : Point) : Triple := ⟨q.x, q.y, 1⟩

/-- The point of a triple, if it is not the one at infinity. -/
def toPoint? (t : Triple) : Option Point :=
  if t.z = 0 then none
  else
    let w := inverse t.z
    let w2 := w * w
    some ⟨t.x * w2, t.y * w2 * w⟩

/-- A point added to itself. -/
def double (t : Triple) : Triple :=
  if t.z = 0 ∨ t.y = 0 then infinity
  else
    let zz := t.z * t.z
    let yy := t.y * t.y
    let s := t.x * yy
    let s := s + s + s + s
    let u := (t.x - zz) * (t.x + zz)
    let m := u + u + u
    let x := m * m - s - s
    let y4 := yy * yy
    let y8 := y4 + y4 + y4 + y4
    let w := t.y * t.z
    ⟨x, m * (s - x) - y8 - y8, w + w⟩

/-- The sum of two points. -/
def add (t u : Triple) : Triple :=
  if t.z = 0 then u
  else if u.z = 0 then t
  else
    let zz := t.z * t.z
    let ww := u.z * u.z
    let x1 := t.x * ww
    let x2 := u.x * zz
    let y1 := t.y * ww * u.z
    let y2 := u.y * zz * t.z
    let h := x2 - x1
    let r := y2 - y1
    if h = 0 then if r = 0 then double t else infinity
    else
      let hh := h * h
      let hhh := hh * h
      let v := x1 * hh
      let x := r * r - hhh - v - v
      ⟨x, r * (v - x) - y1 * hhh, t.z * u.z * h⟩

def multiple (k : Nat) (t : Triple) : Triple :=
  if k = 0 then infinity
  else
    let twice := double (multiple (k / 2) t)
    if k % 2 = 0 then twice else add twice t
termination_by k
decreasing_by exact Nat.div_lt_self (by omega) (by omega)

end Triple

/-- The multiple of the generator, if it is not the point at infinity. -/
def generatorMultiple? (k : Nat) : Option Point :=
  ((Triple.ofPoint generator).multiple (k % n)).toPoint?

/-! ### Written points -/

/-- The ways to write a point. -/
inductive PointForm
  | compressed
  | uncompressed
  | hybrid
  deriving DecidableEq, Repr

/-- The octets of a field element. -/
def fieldBytes (x : Field) : Bytes := Bytes.ofNatWidth 32 x.val

def Point.bytes (q : Point) : PointForm → Bytes
  | .compressed => (2 + q.y.val % 2).toUInt8 :: fieldBytes q.x
  | .uncompressed => 4 :: fieldBytes q.x ++ fieldBytes q.y
  | .hybrid => (6 + q.y.val % 2).toUInt8 :: fieldBytes q.x ++ fieldBytes q.y

/-- The octets of the point at infinity. It has the same in all forms. -/
def infinityBytes : Bytes := [0]

/-- The field element that 32 octets write. -/
def field? (b : Bytes) : Option Field :=
  if h : Bytes.toNat b < p then if b.length = 32 then some ⟨_, h⟩ else none else none

/-- A square root, if there is one: the prime leaves 3 when divided by 4. -/
def root? (x : Field) : Option Field :=
  let r := power x ((p + 1) / 4)
  if r * r = x then some r else none

/-- The point on the curve with a first coordinate and a parity of the second. -/
def decompress? (x : Field) (parity : Nat) : Option Point := do
  let y ← root? (rightSide x)
  let y := if y.val % 2 = parity then y else 0 - y
  if y.val % 2 = parity then some ⟨x, y⟩ else none

/-- The point that octets write, unless it is the one at infinity, and the form in which they write
it. -/
def point? : Bytes → Option (CurvePoint × PointForm)
  | [] => none
  | form :: b =>
    if form = 2 ∨ form = 3 then do
      let q ← decompress? (← field? b) (form.toNat - 2)
      return (← q.checked?, .compressed)
    else if form = 4 ∨ form = 6 ∨ form = 7 then do
      let q ← Point.checked? ⟨← field? (b.take 32), ← field? (b.drop 32)⟩
      if form = 4 then some (q, .uncompressed)
      else if form.toNat - 6 = q.val.y.val % 2 then some (q, .hybrid)
      else none
    else none

end Acme.P256
