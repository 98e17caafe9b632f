import Acme.Bytes

/-!
# Tagged values

The encoding rules of ASN.1, in which keys and certificates are written. A value is a tag, the length
of its content and the content; the content of a sequence is the values in it one after another.
Numbers are written in two's complement with as few octets as possible.

Values are written in the distinguished form. Readers understand more: a length may have zeros in
front, a mark at the end of a content may stand for its length, and a string may consist of parts.
Tags have one octet, as all tags have that are used here.

`encode` writes a tagged value and `next?` reads one off the front of an octet string. The main
statement is `next?_encode_append`: reading undoes writing, whatever follows.
-/

namespace Acme.Der

/-- A tag, given by the octet that writes it. -/
abbrev Tag := UInt8

namespace Tag

def boolean : Tag := 0x01
def integer : Tag := 0x02
def bitString : Tag := 0x03
def octetString : Tag := 0x04
def null : Tag := 0x05
def oid : Tag := 0x06
def utf8String : Tag := 0x0c
def utcTime : Tag := 0x17
def generalizedTime : Tag := 0x18
def sequence : Tag := 0x30
def set : Tag := 0x31

/-- The tag with a number that a surrounding type gives to a single value. -/
def context (n : UInt8) : Tag := 0x80 + n

/-- The tag with a number that a surrounding type gives to values inside. -/
def contextOuter (n : UInt8) : Tag := 0xa0 + n

/-- Whether a tag is for values that consist of values. -/
def isConstructed (tag : Tag) : Bool := tag &&& 0x20 != 0

/-- The tag for a string that consists of parts, from that for the string as a whole. -/
def inParts (tag : Tag) : Tag := tag + 0x20

end Tag

structure Item where
  tag : Tag
  content : Bytes
  deriving DecidableEq, Repr

/-! ### Writing -/

/-- The octets of a length: one below 128, and otherwise the number of octets and then these. -/
def lengthOctets (n : Nat) : Bytes :=
  if n < 128 then [n.toUInt8] else (128 + (Bytes.ofNat n).length).toUInt8 :: Bytes.ofNat n

def encode (tag : Tag) (content : Bytes) : Bytes := tag :: lengthOctets content.length ++ content

def sequence (values : List Bytes) : Bytes := encode Tag.sequence values.flatten

/-- The content of a natural number: a zero in front keeps the sign bit clear. -/
def natContent (n : Nat) : Bytes :=
  match Bytes.ofNat n with
  | [] => [0]
  | x :: rest => if x < 128 then x :: rest else 0 :: x :: rest

/-- The content of an integer. Negative numbers are complements. -/
def intContent : Int → Bytes
  | .ofNat n => natContent n
  | .negSucc n => (natContent n).map (~~~ ·)

def nat (n : Nat) : Bytes := encode Tag.integer (natContent n)

def int (i : Int) : Bytes := encode Tag.integer (intContent i)

def octetString (b : Bytes) : Bytes := encode Tag.octetString b

/-- A string of bits that fills its octets. -/
def bitString (b : Bytes) : Bytes := encode Tag.bitString (0 :: b)

/-- The value that stands for nothing. -/
def null : Bytes := encode Tag.null []

/-- The digits of a number in base 128, all but the last marked as such. -/
def arcOctets (n : Nat) : Bytes :=
  go (n / 128) ++ [(n % 128).toUInt8]
where
  /-- The marked digits in front of the last. -/
  go (n : Nat) : Bytes :=
    if n = 0 then [] else go (n / 128) ++ [(128 + n % 128).toUInt8]
  termination_by n
  decreasing_by exact Nat.div_lt_self (by omega) (by omega)

/-- An object identifier: a path of numbers, of which the first two share one place. -/
abbrev Oid := List Nat

/-- The content of an object identifier. -/
def oidContent : Oid → Bytes
  | first :: second :: rest => ((40 * first + second) :: rest).flatMap arcOctets
  | arcs => arcs.flatMap arcOctets

/-- An object identifier. -/
def oid (arcs : Oid) : Bytes := encode Tag.oid (oidContent arcs)

/-! ### Reading -/

/-- Where a content ends. -/
inductive Extent
  | length (n : Nat)
  /-- It ends with a mark, two zeros in the place of a value. -/
  | marked

/-- What is said at the front of an octet string about where the content ends, and what follows. -/
def extent? : Bytes → Option (Extent × Bytes)
  | [] => none
  | x :: rest =>
    if x < 128 then some (.length x.toNat, rest)
    else if x = 128 then some (.marked, rest)
    else
      let count := x.toNat - 128
      if rest.length < count then none
      else some (.length (Bytes.toNat (rest.take count)), rest.drop count)

theorem length_of_extent? {b rest : Bytes} {e : Extent} (h : extent? b = some (e, rest)) :
    rest.length < b.length := by
  match b, h with
  | x :: tail, h =>
    simp only [extent?] at h
    split at h
    · simp only [Option.some.injEq, Prod.mk.injEq] at h
      simp [← h.2]
    · split at h
      · simp only [Option.some.injEq, Prod.mk.injEq] at h
        simp [← h.2]
      · split at h
        · simp at h
        · simp only [Option.some.injEq, Prod.mk.injEq] at h
          simp only [← h.2, List.length_drop, List.length_cons]
          omega

/-- What follows the mark that ends a content. So many contents that begin inside it end with marks
of their own before. -/
def afterMark? (inner : Nat) (b : Bytes) : Option Bytes :=
  match b with
  | [] => none
  | 0 :: 0 :: rest => if inner = 0 then some rest else afterMark? (inner - 1) rest
  | tag :: tail =>
    match _h : extent? tail with
    | some (.length n, rest) =>
      if rest.length < n then none else afterMark? inner (rest.drop n)
    | some (.marked, rest) =>
      if Tag.isConstructed tag then afterMark? (inner + 1) rest else none
    | none => none
termination_by b.length
decreasing_by
  · simp only [List.length_cons]
    omega
  · have := length_of_extent? _h
    simp only [List.length_drop, List.length_cons]
    omega
  · have := length_of_extent? _h
    simp only [List.length_cons]
    omega

/-- The value at the front of an octet string, and what follows it. -/
def next? : Bytes → Option (Item × Bytes)
  | [] => none
  | tag :: rest =>
    match extent? rest with
    | some (.length n, rest) =>
      if rest.length < n then none else some (⟨tag, rest.take n⟩, rest.drop n)
    | some (.marked, rest) =>
      if Tag.isConstructed tag then
        (afterMark? 0 rest).map fun after =>
          (⟨tag, rest.take (rest.length - after.length - 2)⟩, after)
      else none
    | none => none

theorem length_of_afterMark? {inner : Nat} {b after : Bytes} (h : afterMark? inner b = some after) :
    after.length + 2 ≤ b.length := by
  fun_induction afterMark? inner b with
  | case1 inner => cases h
  | case2 rest =>
    cases h
    simp
  | case3 inner rest hinner ih =>
    have := ih h
    simp only [List.length_cons]
    omega
  | case4 inner tag tail n rest hextent hroom hmark => cases h
  | case5 inner tag tail n rest hmark hextent hroom ih =>
    have := ih h
    have := length_of_extent? hextent
    simp only [List.length_drop, List.length_cons] at *
    omega
  | case6 inner tag tail rest hmark hextent hconstructed ih =>
    have := ih h
    have := length_of_extent? hextent
    simp only [List.length_cons]
    omega
  | case7 inner tag tail rest hmark hextent hconstructed => cases h
  | case8 inner tag tail hmark hextent => cases h

/-- What is read off an octet string takes away at least a tag and what says where the content ends. -/
theorem length_of_next?_content {b rest : Bytes} {item : Item} (h : next? b = some (item, rest)) :
    item.content.length + rest.length < b.length := by
  match b, h with
  | tag :: tail, h =>
    simp only [next?] at h
    split at h
    · next n after hextent =>
      have := length_of_extent? hextent
      split at h
      · simp at h
      · simp only [Option.some.injEq, Prod.mk.injEq] at h
        simp only [← h.1, ← h.2, List.length_take, List.length_drop, List.length_cons]
        omega
    · next after hextent =>
      have := length_of_extent? hextent
      split at h
      · obtain ⟨last, hlast, h⟩ := Option.map_eq_some_iff.mp h
        have := length_of_afterMark? hlast
        simp only [Prod.mk.injEq] at h
        simp only [← h.1, ← h.2, List.length_take, List.length_cons]
        omega
      · simp at h
    · simp at h

/-- Reading a value takes something away. -/
theorem length_of_next? {b rest : Bytes} {item : Item} (h : next? b = some (item, rest)) :
    rest.length < b.length := by
  have := length_of_next?_content h
  omega

/-- The values that an octet string consists of. -/
def items? (b : Bytes) : Option (List Item) :=
  if b = [] then some []
  else
    match _h : next? b with
    | none => none
    | some (item, rest) => (items? rest).map (item :: ·)
termination_by b.length
decreasing_by exact length_of_next? _h

/-- The values of a sequence that stands at the front of an octet string. What follows the
sequence is not looked at. -/
def leadingSequence? (b : Bytes) : Option (List Item) := do
  let (item, _) ← next? b
  if item.tag = Tag.sequence then items? item.content else none

/-- The octets of a string that consists of parts, some of which may do so themselves, but not more
deeply than this. -/
def joined? (nesting : Nat) (b : Bytes) : Option Bytes := do
  let parts ← (← items? b).mapM fun part =>
    if Tag.isConstructed part.tag then
      match nesting with
      | 0 => none
      | nesting + 1 => joined? nesting part.content
    else if part = ⟨0, []⟩ then none
    else some part.content
  return parts.flatten

/-- How deeply strings may consist of parts. -/
def stringNesting : Nat := 5

namespace Item

/-- The content of a value that has to have a tag. -/
def as? (i : Item) (tag : Tag) : Option Bytes := if i.tag = tag then some i.content else none

/-- The content of a string, as a whole or in parts. -/
def string? (i : Item) (tag : Tag) : Option Bytes :=
  if i.tag = Tag.inParts tag then joined? stringNesting i.content else i.as? tag

def sequence? (i : Item) : Option (List Item) := (i.as? Tag.sequence).bind items?

/-- The only value under a tag of a surrounding type. -/
def explicit? (i : Item) (n : UInt8) : Option Item :=
  match (i.as? (Tag.contextOuter n)).bind items? with
  | some [item] => some item
  | _ => none

/-- A natural number. The sign bit counts as any other bit. -/
def nat? (i : Item) : Option Nat := (i.as? Tag.integer).map Bytes.toNat

/-- Whether no octet of a number could be left out. -/
def isShortest : Bytes → Bool
  | [] => false
  | [_] => true
  | x :: y :: _ => !(x == 0 && y < 128) && !(x == 255 && 128 ≤ y)

/-- An integer in its shortest form. -/
def int? (i : Item) : Option Int :=
  match i.as? Tag.integer with
  | some (x :: rest) =>
    if isShortest (x :: rest) then
      if x < 128 then some (.ofNat (Bytes.toNat (x :: rest)))
      else some (.negSucc (Bytes.toNat ((x :: rest).map (~~~ ·))))
    else none
  | _ => none

/-- An integer of 32 bits. Zero may have no octets. -/
def version? (i : Item) : Option Int32 :=
  if i = ⟨Tag.integer, []⟩ then some 0
  else i.int?.bind fun v =>
    if -0x80000000 ≤ v ∧ v < 0x80000000 then some (Int32.ofInt v) else none

def octetString? (i : Item) : Option Bytes := i.string? Tag.octetString

/-- A string of bits, filled up to whole octets with zeros. -/
def bitString? (i : Item) : Option Bytes :=
  match i.string? Tag.bitString with
  | some (0 :: b) => some b
  | some (unused :: b) =>
    if unused < 8 then
      match b.getLast? with
      | some last => some (b.dropLast ++ [last >>> unused <<< unused])
      | none => some []
    else none
  | _ => none

/-- Whether a value is an object identifier. -/
def isOid (i : Item) (arcs : Oid) : Bool := i.tag == Tag.oid && i.content == oidContent arcs

end Item

/-! ### Reading what was written -/

theorem extent?_lengthOctets_append {n : Nat} (hn : n < Bytes.capacity 127) (rest : Bytes) :
    extent? (lengthOctets n ++ rest) = some (.length n, rest) := by
  unfold lengthOctets
  split
  · next h =>
    have hx : (n.toUInt8).toNat = n := by
      rw [Nat.toUInt8, UInt8.toNat_ofNat']; omega
    have : n.toUInt8 < 128 := by
      rw [UInt8.lt_iff_toNat_lt, hx]; exact h
    simp [extent?, this, hx]
  · next h =>
    have hlen : (Bytes.ofNat n).length ≤ 127 := Bytes.length_ofNat_le hn
    have hpos : 0 < (Bytes.ofNat n).length := by
      have hne : n ≠ 0 := by omega
      rw [Bytes.ofNat]
      simp [hne]
    have hx : ((128 + (Bytes.ofNat n).length).toUInt8).toNat = 128 + (Bytes.ofNat n).length := by
      rw [Nat.toUInt8, UInt8.toNat_ofNat']; omega
    have : ¬ (128 + (Bytes.ofNat n).length).toUInt8 < 128 := by
      rw [UInt8.lt_iff_toNat_lt, hx]; simp
    have hmark : ¬ (128 + (Bytes.ofNat n).length).toUInt8 = 128 := by
      rw [← UInt8.toNat_inj, hx]
      show ¬ 128 + (Bytes.ofNat n).length = 128
      omega
    have hz : ¬ (Bytes.ofNat n ++ rest).length < (Bytes.ofNat n).length := by
      simp only [List.length_append]; omega
    have hs : 128 + (Bytes.ofNat n).length - 128 = (Bytes.ofNat n).length := by omega
    simp only [List.cons_append, extent?, if_neg this, if_neg hmark, hx, hs, if_neg hz,
      List.take_left', List.drop_left', Bytes.toNat_ofNat]

/-- Reading undoes writing, whatever follows. -/
theorem next?_encode_append (tag : Tag) {content : Bytes} (h : content.length < Bytes.capacity 127)
    (rest : Bytes) : next? (encode tag content ++ rest) = some (⟨tag, content⟩, rest) := by
  have := extent?_lengthOctets_append h (content ++ rest)
  simp [encode, next?, List.append_assoc, this]

end Acme.Der
