import Acme.Calendar
import Acme.Text.Blank

/-!
# Points in time

A point in time is kept as the date and time of day that a clock at zero offset shows, to the
nanosecond. A minute may have a sixtieth second, so that leap seconds are kept as well.

`text` writes RFC 3339: the fraction of the second takes three, six or nine digits, as few as hold
it, and years outside 0 to 9999 have a sign and at least four digits. `ofText?` reads that form
and looser ones: numbers may have fewer digits, white space may stand in front of numbers and
punctuation, a space may stand for the `T`, and a clock at any offset below a day is converted.
-/

namespace Acme

structure Timestamp where
  date : Date
  hour : Nat
  minute : Nat
  second : Nat
  nano : Nat
  deriving DecidableEq, Repr

namespace Timestamp

/-! ### Writing -/

/-- A number with at least `width` digits. -/
def padded (width n : Nat) : List Char :=
  let ds := Nat.toDigits 10 n
  List.replicate (width - ds.length) '0' ++ ds

/-- The digits of a year, with a sign outside 0 to 9999. -/
def yearText (year : Int) : List Char :=
  if 0 ≤ year ∧ year ≤ 9999 then padded 4 year.toNat
  else (if year < 0 then '-' else '+') :: padded 4 year.natAbs

def fractionText (nano : Nat) : List Char :=
  if nano = 0 then []
  else if nano % 1000000 = 0 then '.' :: padded 3 (nano / 1000000)
  else if nano % 1000 = 0 then '.' :: padded 6 (nano / 1000)
  else '.' :: padded 9 nano

/-- The date and time of day. -/
def localText (t : Timestamp) : List Char :=
  yearText t.date.year ++ '-' :: padded 2 t.date.month ++ '-' :: padded 2 t.date.day
    ++ 'T' :: padded 2 t.hour ++ ':' :: padded 2 t.minute ++ ':' :: padded 2 t.second
    ++ fractionText t.nano

/-- The point in time, its offset written `Z`. -/
def text (t : Timestamp) : String := String.ofList (t.localText ++ ['Z'])

/-- The point in time, its offset written in digits. -/
def numericText (t : Timestamp) : String := String.ofList (t.localText ++ "+00:00".toList)

/-- The number of seconds since the beginning of 1970, the sixtieth second of a minute counting as
the next one's first. -/
def toUnix (t : Timestamp) : Int :=
  t.date.toDays * 86400 + (t.hour * 3600 + t.minute * 60 + t.second : Nat)

/-! ### Reading -/

/-- The number that digits write. -/
def number (ds : List Char) : Nat := ds.foldl (fun n d => n * 10 + (d.toNat - 48)) 0

/-- A number of one to `width` digits, after white space, and what follows it. -/
def number? (width : Nat) (cs : List Char) : Option (Nat × List Char) :=
  let cs := Text.dropBlank cs
  let ds := (cs.takeWhile Char.isDigit).take width
  if ds.isEmpty then none else some (number ds, cs.drop ds.length)

def expect? (c : Char) : List Char → Option (List Char)
  | d :: rest => if c = d then some rest else none
  | [] => none

/-- A year: one to four digits, or any number of digits after a sign. -/
def year? (cs : List Char) : Option (Int × List Char) :=
  let signed (rest : List Char) : Option (Nat × List Char) :=
    if (rest.head?.map Char.isDigit).getD false then number? rest.length rest else none
  match Text.dropBlank cs with
  | '-' :: rest => (signed rest).map fun (n, rest) => (-(n : Int), rest)
  | '+' :: rest => (signed rest).map fun (n, rest) => ((n : Int), rest)
  | rest => (number? 4 rest).map fun (n, rest) => ((n : Int), rest)

/-- The nanoseconds of a fraction after a point; digits beyond the ninth are dropped. -/
def fraction? : List Char → Option (Nat × List Char)
  | '.' :: rest =>
    let ds := rest.takeWhile Char.isDigit
    if ds.isEmpty then none
    else
      let kept := ds.take 9
      some (number kept * Nat.pow 10 (9 - kept.length), rest.drop ds.length)
  | rest => some (0, rest)

/-- Two digits of which the first is below `limit`. -/
def pair? (limit : Nat) : List Char → Option (Nat × List Char)
  | a :: b :: rest =>
    if a.isDigit ∧ b.isDigit ∧ a.toNat - 48 < limit then some (number [a, b], rest) else none
  | _ => none

/-- An offset in minutes: `Z` or `UTC` in either case, or a sign, two digits of hours and two of
minutes, colons and white space between them. A proper minus sign is as good as a hyphen. -/
def offset? : List Char → Option (Int × List Char)
  | 'Z' :: rest | 'z' :: rest => some (0, rest)
  | c :: rest =>
    if (c :: rest.take 2).map Char.toLower = ['u', 't', 'c'] then some (0, rest.drop 2)
    else do
      let sign : Int ← if c = '+' then some 1 else if c = '-' ∨ c = '−' then some (-1) else none
      let (hours, rest) ← pair? 10 rest
      let (minutes, rest) ← pair? 6 (rest.dropWhile fun c => c == ':' || Text.blank.mem c)
      if hours < 24 then some (sign * (hours * 60 + minutes : Nat), rest) else none
  | [] => none

def InRange (year : Int) : Prop := -262143 ≤ year ∧ year ≤ 262142

instance (year : Int) : Decidable (InRange year) := inferInstanceAs (Decidable (_ ∧ _))

/-- Sets a clock that is `offset` minutes ahead to zero offset. -/
def atZeroOffset (t : Timestamp) (offset : Int) : Timestamp :=
  let minutes : Int := (t.hour * 60 + t.minute : Nat) - offset
  let date :=
    if minutes < 0 then t.date.previous else if 1440 ≤ minutes then t.date.next else t.date
  let minutes := (minutes % 1440).toNat
  { t with date, hour := minutes / 60, minute := minutes % 60 }

/-- The point in time that characters write. -/
def ofChars? (cs : List Char) : Option Timestamp := do
  let (year, cs) ← year? cs
  let cs ← expect? '-' (Text.dropBlank cs)
  let (month, cs) ← number? 2 cs
  let cs ← expect? '-' (Text.dropBlank cs)
  let (day, cs) ← number? 2 cs
  let cs ← match cs with
    | c :: rest => if c = 'T' ∨ c = 't' ∨ c = ' ' then some rest else none
    | [] => none
  let (hour, cs) ← number? 2 cs
  let cs ← expect? ':' (Text.dropBlank cs)
  let (minute, cs) ← number? 2 cs
  let cs ← expect? ':' (Text.dropBlank cs)
  let (second, cs) ← number? 2 cs
  let (nano, cs) ← fraction? cs
  let (offset, cs) ← offset? (Text.dropBlank cs)
  let date ← Date.make? year month day
  let t := atZeroOffset { date, hour, minute, second, nano } offset
  if (Text.dropBlank cs).isEmpty ∧ hour < 24 ∧ minute < 60 ∧ second ≤ 60 ∧ InRange year
      ∧ InRange t.date.year then
    some t
  else none

/-- The point in time that a text writes. -/
def ofText? (s : String) : Option Timestamp := ofChars? s.toList

end Timestamp

end Acme
