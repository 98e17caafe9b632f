import Acme.Der
import Acme.Timestamp

/-!
# Times in certificates

A certificate is valid between two times. There are two forms of them: one with the last two digits
of a year from 1950 to 2049, and one with all four. Both are rows of two-digit numbers and end in
`Z` or in an offset. The seconds may be missing; in the longer form a fraction may follow them.
-/

namespace Acme.Certificate.Time

/-- A value that is a time, as far as its tag and its length tell. -/
def item? (i : Der.Item) : Option Der.Item :=
  match i.string? Der.Tag.utcTime, i.string? Der.Tag.generalizedTime with
  | some b, _ => if 13 ≤ b.length then some ⟨Der.Tag.utcTime, b⟩ else none
  | none, some b => if 15 ≤ b.length then some ⟨Der.Tag.generalizedTime, b⟩ else none
  | none, none => none

/-- The value of a decimal digit. -/
def digit? (x : UInt8) : Option Nat := if 48 ≤ x ∧ x ≤ 57 then some (x.toNat - 48) else none

/-- A number of two digits that lies between two others, and what follows it. -/
def pair? (low high : Nat) : Bytes → Option (Nat × Bytes)
  | x :: y :: rest => do
    let n := 10 * (← digit? x) + (← digit? y)
    if low ≤ n ∧ n ≤ high then some (n, rest) else none
  | _ => none

/-- The year: two digits stand for one from 1950 to 2049. -/
def year? (tag : Der.Tag) (b : Bytes) : Option (Nat × Bytes) := do
  let (n, b) ← pair? 0 99 b
  if tag = Der.Tag.utcTime then some (if n < 50 then 2000 + n else 1900 + n, b)
  else
    let (m, b) ← pair? 0 99 b
    some (100 * n + m, b)

/-- Whether an octet begins the offset of a clock. -/
def startsOffset (x : UInt8) : Bool := x == 90 || x == 43 || x == 45

/-- The seconds. They are zero if the offset of the clock stands in their place. -/
def second? (b : Bytes) : Option (Nat × Bytes) :=
  if b.head?.any startsOffset then some (0, b) else pair? 0 59 b

/-- What follows a fraction of a second, if there is one; it needs a digit after the point. -/
def afterFraction? (tag : Der.Tag) : Bytes → Option Bytes
  | 46 :: rest =>
    let digits := rest.takeWhile fun x => (digit? x).isSome
    if tag = Der.Tag.generalizedTime ∧ digits ≠ [] then some (rest.drop digits.length) else none
  | b => some b

/-- How many minutes a clock is ahead. Nothing may follow. -/
def offset? : Bytes → Option Int
  | [90] => some 0
  | sign :: b => do
    let sign : Int ← if sign = 43 then some 1 else if sign = 45 then some (-1) else none
    let (hours, b) ← pair? 0 12 b
    let (minutes, b) ← pair? 0 59 b
    if b = [] then some (sign * (60 * hours + minutes : Nat)) else none
  | [] => none

/-- Sets a clock to zero offset. What it shows then has to lie between 1900 and 9999, unless it was
there before. -/
def atZeroOffset? (t : Timestamp) (offset : Int) : Option Timestamp :=
  if offset = 0 then some t
  else
    let t := t.atZeroOffset offset
    if 1900 ≤ t.date.year ∧ t.date.year ≤ 9999 then some t else none

/-- The point in time that a value writes. -/
def ofItem? (i : Der.Item) : Option Timestamp := do
  let (year, b) ← year? i.tag i.content
  let (month, b) ← pair? 1 12 b
  let (day, b) ← pair? 1 31 b
  let (hour, b) ← pair? 0 23 b
  let (minute, b) ← pair? 0 59 b
  let (second, b) ← second? b
  let offset ← offset? (← afterFraction? i.tag b)
  let date ← Date.make? year month day
  atZeroOffset? { date, hour, minute, second, nano := 0 } offset

end Acme.Certificate.Time
