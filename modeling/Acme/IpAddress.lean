/-!
# IP addresses

Reads the text forms of IPv4 and IPv6 addresses. An IPv4 address is four decimal numbers below 256
without leading zeros. An IPv6 address is eight groups of one to four hexadecimal digits, of which
`::` may stand for one or more zero groups once, and an IPv4 address for the last two.
-/

namespace Acme

/-- An address, as the octets that stand for it on the wire. -/
inductive IpAddress
  | v4 (octets : Vector UInt8 4)
  | v6 (groups : List Nat)
  deriving DecidableEq, Repr

namespace IpAddress

/-- A number in base ten or sixteen of at most `width` digits, and what follows all digits. -/
def number? (isDigit : Char → Bool) (value : Char → Nat) (base width : Nat) (cs : List Char) :
    Option (Nat × List Char) :=
  let ds := cs.takeWhile isDigit
  if ds.isEmpty ∨ width < ds.length then none
  else some (ds.foldl (fun n d => n * base + value d) 0, cs.drop ds.length)

def hexValue (c : Char) : Nat :=
  if c.isDigit then c.toNat - 48 else if c.isUpper then c.toNat - 55 else c.toNat - 87

def isHexDigit (c : Char) : Bool :=
  c.isDigit || ('a' ≤ c && c ≤ 'f') || ('A' ≤ c && c ≤ 'F')

/-- A decimal number below 256 without leading zeros. -/
def octet? (cs : List Char) : Option (UInt8 × List Char) := do
  let (n, rest) ← number? Char.isDigit (·.toNat - 48) 10 3 cs
  if n < 256 ∧ ¬ (cs.head? = some '0' ∧ rest.length + 1 < cs.length) then
    some (n.toUInt8, rest)
  else none

def expect? (c : Char) : List Char → Option (List Char)
  | d :: rest => if c = d then some rest else none
  | [] => none

/-- An IPv4 address and what follows it. -/
def v4? (cs : List Char) : Option (Vector UInt8 4 × List Char) := do
  let (a, cs) ← octet? cs
  let (b, cs) ← octet? (← expect? '.' cs)
  let (c, cs) ← octet? (← expect? '.' cs)
  let (d, cs) ← octet? (← expect? '.' cs)
  return (#v[a, b, c, d], cs)

/-- The two groups that an IPv4 address stands for. -/
def embedded (a : Vector UInt8 4) : List Nat :=
  [a[0].toNat * 256 + a[1].toNat, a[2].toNat * 256 + a[3].toNat]

/-- Up to `room` groups separated by colons, the first of them after a colon too unless `isFirst`.
Where two more groups fit, an IPv4 address is taken for them, which ends the groups. Also says
whether they ended so. -/
def groups (isFirst : Bool) : (room : Nat) → List Char → List Nat × Bool × List Char
  | 0, cs => ([], false, cs)
  | room + 1, cs =>
    match if isFirst then some cs else expect? ':' cs with
    | none => ([], false, cs)
    | some start =>
      match if 0 < room then v4? start else none with
      | some (a, rest) => (embedded a, true, rest)
      | none =>
        match number? isHexDigit hexValue 16 4 start with
        | none => ([], false, cs)
        | some (g, rest) =>
          let (gs, withV4, rest) := groups false room rest
          (g :: gs, withV4, rest)

/-- An IPv6 address and what follows it. -/
def v6? (cs : List Char) : Option (List Nat × List Char) := do
  let (head, withV4, cs) := groups true 8 cs
  if head.length = 8 then return (head, cs)
  if withV4 then none
  let cs ← expect? ':' (← expect? ':' cs)
  let (tail, _, cs) := groups true (7 - head.length) cs
  return (head ++ List.replicate (8 - head.length - tail.length) 0 ++ tail, cs)

def ofText? (s : String) : Option IpAddress :=
  match v4? s.toList with
  | some (a, rest) => if rest.isEmpty then some (.v4 a) else none
  | none => do
    let (gs, rest) ← v6? s.toList
    if rest.isEmpty then some (.v6 gs) else none

/-- The address in network order: four or sixteen octets. -/
def octets : IpAddress → List UInt8
  | .v4 a => a.toList
  | .v6 gs => gs.flatMap fun g => [(g / 256).toUInt8, g.toUInt8]

end IpAddress

end Acme
