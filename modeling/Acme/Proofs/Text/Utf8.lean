import Acme.Bytes

/-!
# UTF-8 of texts

`Bytes.ofText` taken apart: it turns `++` into `++`, and a text is the octets of its characters one
after another. A character below 128 is one octet, its code point; a character from 128 on is made
of octets from 128 on, so no octet of it can be taken for an ASCII character.
-/

namespace Acme.Bytes

@[simp] theorem ofText_append (s t : String) : ofText (s ++ t) = ofText s ++ ofText t := by
  simp [ofText, String.toUTF8]

theorem ofText_ofList (cs : List Char) :
    ofText (String.ofList cs) = cs.flatMap String.utf8EncodeChar := by
  simp [ofText, String.toUTF8, List.utf8Encode]

theorem ofText_eq_flatMap (s : String) : ofText s = s.toList.flatMap String.utf8EncodeChar := by
  rw [← ofText_ofList, String.ofList_toList]

/-- Texts with the same octets are the same. -/
theorem ofText_inj {s t : String} : ofText s = ofText t ↔ s = t := by
  constructor
  · intro h
    have hread : text? (ofText s) = text? (ofText t) := by rw [h]
    rw [text?_ofText, text?_ofText] at hread
    exact Option.some.inj hread
  · rintro rfl
    rfl

/-! ### Octets of one character -/

theorem utf8EncodeChar_of_lt {c : Char} (h : c.toNat < 128) :
    String.utf8EncodeChar c = [c.toNat.toUInt8] := by
  have hc : c.val.toNat ≤ 0x7f := by
    show c.toNat ≤ 127
    omega
  unfold String.utf8EncodeChar
  simp only [hc, ↓reduceIte]
  rfl

/-- No octet of a character beyond ASCII is an ASCII character. -/
theorem le_of_mem_utf8EncodeChar {c : Char} (h : 128 ≤ c.toNat) {x : UInt8}
    (hx : x ∈ String.utf8EncodeChar c) : 128 ≤ x := by
  have hc : ¬ c.val.toNat ≤ 0x7f := by
    show ¬ c.toNat ≤ 127
    omega
  have hmax : c.val.toNat < 0x110000 := by
    have := c.valid
    simp only [UInt32.isValidChar, Nat.isValidChar] at this
    omega
  rw [UInt8.le_iff_toNat_le]
  -- every octet is a lead of at least 192 or a tail of 128 plus six bits
  have hoctet (n : Nat) (hn : 128 ≤ n) (hn' : n < 256) : 128 ≤ (UInt8.ofNat n).toNat := by
    rw [UInt8.toNat_ofNat', Nat.mod_eq_of_lt hn']
    exact hn
  unfold String.utf8EncodeChar at hx
  simp only [hc, ↓reduceIte] at hx
  split at hx
  · simp only [List.mem_cons, List.not_mem_nil, or_false] at hx
    rcases hx with rfl | rfl <;> exact hoctet _ (by omega) (by omega)
  · split at hx
    · simp only [List.mem_cons, List.not_mem_nil, or_false] at hx
      rcases hx with rfl | rfl | rfl <;> exact hoctet _ (by omega) (by omega)
    · simp only [List.mem_cons, List.not_mem_nil, or_false] at hx
      rcases hx with rfl | rfl | rfl | rfl <;> exact hoctet _ (by omega) (by omega)

/-- An ASCII character is the only one that has its octet. -/
theorem toNat_of_mem_utf8EncodeChar {c : Char} {x : UInt8} (hx : x ∈ String.utf8EncodeChar c)
    (hlt : x < 128) : c.toNat = x.toNat := by
  have hascii : c.toNat < 128 := by
    refine Nat.lt_of_not_le fun hbeyond => ?_
    have hle := le_of_mem_utf8EncodeChar hbeyond hx
    rw [UInt8.lt_iff_toNat_lt] at hlt
    rw [UInt8.le_iff_toNat_le] at hle
    exact absurd hlt (Nat.not_lt.mpr hle)
  rw [utf8EncodeChar_of_lt hascii, List.mem_singleton] at hx
  rw [hx, Nat.toUInt8, UInt8.toNat_ofNat']
  omega

/-! ### Octets and characters one by one -/

theorem toNat_charOfNat {n : Nat} (h : n < 0xd800) : (Char.ofNat n).toNat = n := by
  rw [Char.ofNat, dif_pos (.inl h)]
  rfl

/-- Octets below 128 are the UTF-8 form of the text that they stand for one by one. -/
theorem ofText_asciiText {b : Bytes} (h : ∀ x ∈ b, x < 128) : ofText (asciiText b) = b := by
  rw [asciiText, ofText_ofList]
  induction b with
  | nil => rfl
  | cons x b ih =>
    have hx : x.toNat < 128 := UInt8.lt_iff_toNat_lt.mp (h x (by simp))
    have hchar : (Char.ofNat x.toNat).toNat = x.toNat := toNat_charOfNat (by omega)
    rw [List.map_cons, List.flatMap_cons, ih fun y hy => h y (by simp [hy]),
      utf8EncodeChar_of_lt (by omega), hchar]
    simp [Nat.toUInt8]

end Acme.Bytes
