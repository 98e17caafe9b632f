import Acme.Der
import Acme.Proofs.Base64

/-!
# Reading tagged values back

Numbers are read as they were written (`nat?_natContent`, `int?_intContent`), and so are values one
after another (`items?_bytes`), alone under a tag or in a sequence, as long as their lengths can be
written at all.
-/

namespace Acme

/-- Values are read one by one exactly if each of them is. -/
theorem mapM_eq_some_iff {α β : Type} {f : α → Option β} {xs : List α} {ys : List β} :
    xs.mapM f = some ys ↔ xs.map f = ys.map some := by
  induction xs generalizing ys with
  | nil =>
    cases ys <;> simp
  | cons x xs ih =>
    rw [List.mapM_cons, List.map_cons]
    constructor
    · intro h
      obtain ⟨y, hy, h⟩ := Option.bind_eq_some_iff.mp h
      obtain ⟨rest, hrest, h⟩ := Option.bind_eq_some_iff.mp h
      cases h
      rw [hy, ih.mp hrest]
      rfl
    · intro h
      cases ys with
      | nil => cases h
      | cons y ys =>
        rw [List.map_cons, List.cons.injEq] at h
        rw [h.1, ih.mpr h.2]
        rfl

/-! ### Numbers and their octets -/

namespace Bytes

/-- What no octet string reaches in length: more octets than this have no addresses. -/
def memoryLimit : Nat := Nat.pow 2 63

/-- The length of an octet string can always be written. -/
theorem memoryLimit_lt : memoryLimit < capacity 127 := by decide +kernel

theorem capacity_pos (width : Nat) : 0 < capacity width := Nat.pow_pos (by decide)

theorem capacity_mono {m n : Nat} (h : m ≤ n) : capacity m ≤ capacity n :=
  Nat.pow_le_pow_right (by decide) h

/-- A number has room in the octets that it is read from. -/
theorem toNat_lt_capacity (b : Bytes) : toNat b < capacity b.length := by
  have hsame := toNat_ofNatWidth b.length (toNat b)
  rw [ofNatWidth_toNat] at hsame
  rw [hsame]
  exact Nat.mod_lt _ (capacity_pos _)

theorem toNat_zero_cons (b : Bytes) : toNat (0 :: b) = toNat b := rfl

/-- The shortest form of a number does not begin with a zero. -/
theorem ofNat_head_ne_zero {n : Nat} {x : UInt8} {rest : Bytes} (h : ofNat n = x :: rest) :
    x ≠ 0 := by
  induction n using Nat.strongRecOn generalizing rest with
  | ind n ih =>
    rw [ofNat] at h
    split at h
    · cases h
    · rename_i hpos
      -- the last octet is also the first if there is nothing in front of it
      cases hlead : ofNat (n / 256) with
      | nil =>
        have hsmall : n / 256 = 0 := by
          rw [← toNat_ofNat (n / 256), hlead]
          rfl
        rw [hlead, List.nil_append] at h
        cases h
        rw [Nat.toUInt8, ne_eq, ← UInt8.toNat_inj, UInt8.toNat_ofNat']
        show ¬ n % 256 = 0
        omega
      | cons y lead =>
        rw [hlead, List.cons_append] at h
        cases h
        exact ih (n / 256) (Nat.div_lt_self (by omega) (by omega)) hlead

end Bytes

namespace Der

open Bytes (capacity)

/-- The content of a natural number begins with a clear sign bit and is as short as it can be. -/
theorem natContent_spec (n : Nat) :
    ∃ x rest, natContent n = x :: rest ∧ x < 128 ∧ Item.isShortest (x :: rest)
      ∧ Bytes.toNat (x :: rest) = n := by
  have hvalue := Bytes.toNat_ofNat n
  unfold natContent
  cases hn : Bytes.ofNat n with
  | nil =>
    rw [hn] at hvalue
    exact ⟨0, [], rfl, by decide, rfl, hvalue⟩
  | cons x rest =>
    rw [hn] at hvalue
    have hzero : x ≠ 0 := Bytes.ofNat_head_ne_zero hn
    dsimp only
    split
    · rename_i hclear
      have hfull : x ≠ 255 := by
        rintro rfl
        exact absurd hclear (by decide)
      refine ⟨x, rest, rfl, hclear, ?_, hvalue⟩
      cases rest with
      | nil => rfl
      | cons y rest => simp [Item.isShortest, hzero, hfull]
    · rename_i hset
      refine ⟨0, x :: rest, rfl, by decide, ?_, (Bytes.toNat_zero_cons _).trans hvalue⟩
      simp [Item.isShortest, hset]

theorem toNat_natContent (n : Nat) : Bytes.toNat (natContent n) = n := by
  obtain ⟨x, rest, hcontent, -, -, hvalue⟩ := natContent_spec n
  rw [hcontent, hvalue]

/-- A number takes at most one octet more than it has room in. -/
theorem length_natContent_le {n k : Nat} (h : n < capacity k) : (natContent n).length ≤ k + 1 := by
  have hlength := Bytes.length_ofNat_le h
  unfold natContent
  split
  · simp
  · rename_i x rest hn
    rw [hn] at hlength
    split
    · exact Nat.le_succ_of_le hlength
    · exact Nat.succ_le_succ hlength

theorem nat?_natContent (n : Nat) : (⟨Tag.integer, natContent n⟩ : Item).nat? = some n := by
  simp [Item.nat?, Item.as?, toNat_natContent]

/-- A number in its shortest form has its complement in its shortest form. -/
theorem isShortest_complement (b : Bytes) :
    Item.isShortest (b.map (~~~ ·)) = Item.isShortest b := by
  match b with
  | [] => rfl
  | [_] => rfl
  | x :: y :: rest =>
    -- zero and all ones change places, and so do a clear and a set sign bit
    have hx := x.toNat_lt
    have hy := y.toNat_lt
    have hzero : (~~~x == 0) = (x == 255) := by
      rw [Bool.eq_iff_iff, beq_iff_eq, beq_iff_eq, ← UInt8.toNat_inj, ← UInt8.toNat_inj,
        UInt8.toNat_not]
      show 256 - 1 - x.toNat = 0 ↔ x.toNat = 255
      omega
    have hfull : (~~~x == 255) = (x == 0) := by
      rw [Bool.eq_iff_iff, beq_iff_eq, beq_iff_eq, ← UInt8.toNat_inj, ← UInt8.toNat_inj,
        UInt8.toNat_not]
      show 256 - 1 - x.toNat = 255 ↔ x.toNat = 0
      omega
    have hclear : (~~~y < 128) ↔ 128 ≤ y := by
      rw [UInt8.lt_iff_toNat_lt, UInt8.le_iff_toNat_le, UInt8.toNat_not]
      show 256 - 1 - y.toNat < 128 ↔ 128 ≤ y.toNat
      omega
    have hset : (128 ≤ ~~~y) ↔ y < 128 := by
      rw [UInt8.lt_iff_toNat_lt, UInt8.le_iff_toNat_le, UInt8.toNat_not]
      show 128 ≤ 256 - 1 - y.toNat ↔ y.toNat < 128
      omega
    simp only [List.map_cons, Item.isShortest, hzero, hfull, hclear, hset]
    exact Bool.and_comm _ _

theorem int?_intContent (i : Int) : (⟨Tag.integer, intContent i⟩ : Item).int? = some i := by
  cases i with
  | ofNat n =>
    obtain ⟨x, rest, hcontent, hclear, hshortest, hvalue⟩ := natContent_spec n
    simp [Item.int?, Item.as?, intContent, hcontent, hclear, hshortest, hvalue]
  | negSucc n =>
    obtain ⟨x, rest, hcontent, hclear, hshortest, hvalue⟩ := natContent_spec n
    -- the sign bit of a complement is set
    have hset : ¬ ~~~x < 128 := by
      rw [UInt8.lt_iff_toNat_lt] at hclear ⊢
      rw [UInt8.toNat_not]
      show ¬ 256 - 1 - x.toNat < 128
      exact Nat.not_lt.mpr (by have : x.toNat < 128 := hclear; omega)
    have hcomplement : Item.isShortest ((~~~x) :: rest.map (~~~ ·)) := by
      have hsame := isShortest_complement (x :: rest)
      rw [List.map_cons] at hsame
      rw [hsame]
      exact hshortest
    have htwice : ((~~~x) :: rest.map (~~~ ·)).map (~~~ ·) = x :: rest := by
      simp [Function.comp_def]
    simp only [Item.int?, Item.as?, intContent, hcontent, List.map_cons, if_pos, hcomplement, hset,
      if_false]
    rw [List.map_cons] at htwice
    rw [htwice, hvalue]

theorem version?_intContent (v : Int32) :
    (⟨Tag.integer, intContent v.toInt⟩ : Item).version? = some v := by
  have hcontent : (⟨Tag.integer, intContent v.toInt⟩ : Item) ≠ ⟨Tag.integer, []⟩ := by
    intro h
    have hread := int?_intContent v.toInt
    rw [h] at hread
    cases hread
  have hroom : -0x80000000 ≤ v.toInt ∧ v.toInt < 0x80000000 := ⟨v.le_toInt, v.toInt_lt⟩
  rw [Item.version?, if_neg hcontent, int?_intContent, Option.bind_some, if_pos hroom,
    Int32.ofInt_toInt]

theorem length_intContent_le (v : Int32) : (intContent v.toInt).length ≤ 5 := by
  have hcapacity : (2147483648 : Nat) ≤ capacity 4 := by decide
  have hlow : -2147483648 ≤ v.toInt := v.le_toInt
  have hhigh : v.toInt < 2147483648 := v.toInt_lt
  cases hv : v.toInt with
  | ofNat n =>
    have hn : n < 2147483648 := by
      rw [hv, Int.ofNat_eq_natCast] at hhigh
      omega
    exact length_natContent_le (Nat.lt_of_lt_of_le hn hcapacity)
  | negSucc n =>
    have hn : n < 2147483648 := by omega
    rw [intContent, List.length_map]
    exact length_natContent_le (Nat.lt_of_lt_of_le hn hcapacity)

/-! ### Strings that are not in parts -/

@[simp] theorem octetString?_mk (b : Bytes) : (⟨Tag.octetString, b⟩ : Item).octetString? = some b :=
  rfl

@[simp] theorem bitString?_mk (b : Bytes) : (⟨Tag.bitString, 0 :: b⟩ : Item).bitString? = some b :=
  rfl

/-! ### Values one after another -/

/-- The octets of a value. -/
def Item.bytes (i : Item) : Bytes := encode i.tag i.content

theorem Item.length_content_lt (i : Item) : i.content.length < i.bytes.length := by
  simp only [bytes, encode, List.length_cons, List.length_append]
  omega

/-- Values one after another are read as they were written. -/
theorem items?_bytes {is : List Item} (h : (is.flatMap Item.bytes).length < capacity 127) :
    items? (is.flatMap Item.bytes) = some is := by
  induction is with
  | nil =>
    rw [List.flatMap_nil, items?]
    rfl
  | cons i is ih =>
    rw [List.flatMap_cons, List.length_append] at h
    -- a part is shorter than the whole, so its length can be written too
    have hcontent : i.content.length < capacity 127 := by
      have hshort := i.length_content_lt
      omega
    have hnext : next? (i.bytes ++ is.flatMap Item.bytes) = some (i, is.flatMap Item.bytes) :=
      next?_encode_append i.tag hcontent _
    have hne : i.bytes ++ is.flatMap Item.bytes ≠ [] := List.cons_ne_nil _ _
    rw [List.flatMap_cons, items?, if_neg hne]
    split
    · rename_i hnone
      rw [hnext] at hnone
      cases hnone
    · rename_i hsome
      rw [hnext] at hsome
      cases hsome
      rw [ih (by omega)]
      rfl

/-- A sequence is read from the front of its octets. -/
theorem leadingSequence?_encode {is : List Item} (h : (is.flatMap Item.bytes).length < capacity 127) :
    leadingSequence? (encode Tag.sequence (is.flatMap Item.bytes)) = some is := by
  have hnext := next?_encode_append Tag.sequence h []
  rw [List.append_nil] at hnext
  rw [leadingSequence?, hnext]
  exact items?_bytes h

theorem sequence?_flatMap {is : List Item} (h : (is.flatMap Item.bytes).length < capacity 127) :
    (⟨Tag.sequence, is.flatMap Item.bytes⟩ : Item).sequence? = some is := by
  simp [Item.sequence?, Item.as?, items?_bytes h]

/-- A value alone is read as it was written. -/
theorem items?_one {i : Item} (h : i.bytes.length < capacity 127) : items? i.bytes = some [i] := by
  have hone : items? ([i].flatMap Item.bytes) = some [i] := items?_bytes (by simpa using h)
  simpa using hone

theorem explicit?_bytes (n : UInt8) {i : Item} (h : i.bytes.length < capacity 127) :
    (⟨Tag.contextOuter n, i.bytes⟩ : Item).explicit? n = some i := by
  simp [Item.explicit?, Item.as?, items?_one h]

/-- What goes in front of a content takes at most as many octets as the longest length. -/
theorem length_encode_le (tag : Tag) {content : Bytes} (h : content.length < capacity 127) :
    (encode tag content).length ≤ content.length + 129 := by
  have hlength := Bytes.length_ofNat_le h
  have hoctets : (lengthOctets content.length).length ≤ 128 := by
    unfold lengthOctets
    split
    · simp
    · rw [List.length_cons]
      omega
  simp only [encode, List.length_cons, List.length_append]
  omega

/-- Values with contents of a bounded length together. -/
theorem length_flatMap_bytes_le {is : List Item} {length : Nat}
    (h : ∀ i ∈ is, i.content.length ≤ length) (hlength : length < capacity 127) :
    (is.flatMap Item.bytes).length ≤ is.length * (length + 129) := by
  induction is with
  | nil => exact Nat.zero_le _
  | cons i is ih =>
    have hfirst : i.content.length ≤ length := h i (by simp)
    have hbytes : i.bytes.length ≤ i.content.length + 129 :=
      length_encode_le i.tag (Nat.lt_of_le_of_lt hfirst hlength)
    have hrest := ih fun j hj => h j (by simp [hj])
    rw [List.flatMap_cons, List.length_append, List.length_cons, Nat.succ_mul]
    omega

theorem length_content_lt_of_mem {i : Item} {is : List Item} (h : i ∈ is) :
    i.content.length < (is.flatMap Item.bytes).length := by
  obtain ⟨before, after, rfl⟩ := List.append_of_mem h
  have hshort := i.length_content_lt
  rw [List.flatMap_append, List.flatMap_cons, List.length_append, List.length_append]
  omega

end Der

end Acme
