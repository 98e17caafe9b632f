import Acme.Json.Basic
import Acme.Json.Node

/-!
# What a JSON text stands for

Interprets the written strings and numbers of a `Node`:

* `text?` undoes the escapes of a string, which then has to be well-formed UTF-8, without half of
  a surrogate pair;
* `number?` reads a number, as an integer if it is written as one and fits 64 bits;
* `value?` reads a whole value and keeps every part of it, so every part has to be in order, and
  only so many arrays and objects may stand inside one another.
-/

namespace Acme.Json

namespace Node

/-! ### Strings -/

def hexValue (x : UInt8) : Nat :=
  if x < 58 then x.toNat - 48 else if x < 71 then x.toNat - 55 else x.toNat - 87

/-- The number that four hexadecimal digits write. -/
def hexNumber (a b c d : UInt8) : Nat :=
  [a, b, c, d].foldl (fun n x => n * 16 + hexValue x) 0

/-- The octet that a two-character escape stands for. -/
def unescape (x : UInt8) : UInt8 :=
  match x with
  | 98 => 8
  | 102 => 12
  | 110 => 10
  | 114 => 13
  | 116 => 9
  | _ => x

/-- The UTF-8 form of the character with a code point. -/
def utf8 (n : Nat) : Bytes := Bytes.ofText (String.singleton (Char.ofNat n))

/-- The octets of a string, its escapes undone. Two escapes in a row may write the halves of a
surrogate pair; a half on its own is no character. -/
def unescaped : Bytes → Option Bytes
  | 92 :: 117 :: a :: b :: c :: d :: rest =>
    let high := hexNumber a b c d
    if 0xd800 ≤ high ∧ high < 0xdc00 then
      match rest with
      | 92 :: 117 :: e :: f :: g :: h :: rest =>
        let low := hexNumber e f g h
        if 0xdc00 ≤ low ∧ low < 0xe000 then
          (unescaped rest).map (utf8 (0x10000 + (high - 0xd800) * 1024 + (low - 0xdc00)) ++ ·)
        else none
      | _ => none
    else if 0xdc00 ≤ high ∧ high < 0xe000 then none
    else (unescaped rest).map (utf8 high ++ ·)
  | 92 :: x :: rest => (unescaped rest).map (unescape x :: ·)
  | x :: rest => (unescaped rest).map (x :: ·)
  | [] => some []

def writtenText? (written : Bytes) : Option String := (unescaped written).bind Bytes.text?

def text? : Node → Option String
  | .string written => writtenText? written
  | _ => none

/-! ### Numbers -/

/-- The number that decimal digits write. -/
def digits (ds : Bytes) : Nat := ds.foldl (fun n x => n * 10 + (x.toNat - 48)) 0

/-- The parts of a written number. -/
structure Decimal where
  negative : Bool
  whole : Bytes
  fraction : Bytes
  exponent : Int
  /-- Whether only the whole part is written. -/
  isWhole : Bool

/-- Takes a written number apart. -/
def decimal (written : Bytes) : Decimal :=
  let negative := written.head? == some 45
  let unsigned := if negative then written.drop 1 else written
  let whole := unsigned.takeWhile isDigit
  let rest := unsigned.dropWhile isDigit
  let fraction := if rest.head? = some 46 then (rest.drop 1).takeWhile isDigit else []
  let tail := if rest.head? = some 46 then (rest.drop 1).dropWhile isDigit else rest
  let power (ds : Bytes) : Int :=
    match ds with
    | 45 :: ds => -(digits ds : Int)
    | 43 :: ds => digits ds
    | ds => digits ds
  { negative, whole, fraction, exponent := power (tail.drop 1), isWhole := rest.isEmpty }

/-- The greatest significand that is kept exactly. -/
def significandLimit : Nat := Nat.pow 2 64

/-- The leading digits as long as the number they write stays below the limit, and the digits
after them. -/
def significand : (n : Nat) → Bytes → Nat × Bytes
  | n, [] => (n, [])
  | n, d :: ds =>
    let next := n * 10 + (d.toNat - 48)
    if next < significandLimit then significand next ds else (n, d :: ds)

/-- The floating point number nearest to the leading digits, scaled by a power of ten. -/
def Decimal.real? (d : Decimal) : Option Binary64 :=
  let (n, left) := significand 0 d.whole
  let (n, dropped) := significand n d.fraction
  Binary64.ofDecimal? n
    (d.exponent + left.length - (d.fraction.length - dropped.length : Nat))

/-- The integer that a number is, if it is written as one and fits 64 bits. Zero has no sign. -/
def Decimal.integer? (d : Decimal) : Option Int :=
  let n := digits d.whole
  if !d.isWhole then none
  else if d.negative then if 0 < n ∧ n ≤ Nat.pow 2 63 then some (-n) else none
  else if n < Nat.pow 2 64 then some n
  else none

/-- The number that a text writes; none beyond the greatest floating point number. -/
def number? : Node → Option Number
  | .number written =>
    let d := decimal written
    match d.integer? with
    | some n => some (.integer n)
    | none => d.real?.map (.real d.negative ·)
  | _ => none

/-- A natural number that fits so many bits. -/
def nat? (bits : Nat) (n : Node) : Option Nat :=
  match n.number? with
  | some (.integer (.ofNat k)) => if k < Nat.pow 2 bits then some k else none
  | _ => none

/-- A natural number that fits an octet. -/
def octet? (n : Node) : Option UInt8 := (n.nat? 8).map Nat.toUInt8

def bool? : Node → Option Bool
  | .bool b => some b
  | _ => none

/-- A value that may be null instead. -/
def nullable {α : Type} (read : Node → Option α) : Node → Option (Option α)
  | .null => some none
  | n => (read n).map some

/-- The items of an array, each read in the same way. -/
def list? {α : Type} (read : Node → Option α) : Node → Option (List α)
  | .array items => items.mapM read
  | _ => none

/-! ### Values -/

/-- Adds a member. A name that is there already keeps its place and takes the new value. -/
def insert (members : List (String × Json)) (name : String) (value : Json) : List (String × Json) :=
  if members.any (·.1 == name) then
    members.map fun m => if m.1 == name then (name, value) else m
  else members ++ [(name, value)]

/-- How many arrays and objects may stand inside one another where values are kept. -/
def nestingLimit : Nat := 127

mutual

/-- The value of a text in which at most `room` arrays and objects stand inside one another. -/
def value? (room : Nat) : Node → Option Json
  | .null => some .null
  | .bool b => some (.bool b)
  | .number written => (number? (.number written)).map .number
  | .string written => (writtenText? written).map .string
  | .array items => if room = 0 then none else (items? (room - 1) items).map .array
  | .object members => if room = 0 then none else (members? (room - 1) [] members).map .object

def items? (room : Nat) : List Node → Option (List Json)
  | [] => some []
  | item :: rest => do return (← value? room item) :: (← items? room rest)

/-- The values of members, added to those before them. -/
def members? (room : Nat) (done : List (String × Json)) :
    List (Bytes × Node) → Option (List (String × Json))
  | [] => some done
  | (name, item) :: rest => do
    let name ← writtenText? name
    let value ← value? room item
    members? room (insert done name value) rest

end

end Node

def read? (b : Bytes) : Option Json := (Node.read b).bind (Node.value? Node.nestingLimit)

end Acme.Json
