import Acme.Proofs.Json.Reading

/-!
# Texts without white space

White space means something inside of strings only. `outside` is what is left of a text without its strings,
and a text is `Compact` if no white space is left. `Json.text` writes compact texts (`compact_text`).
-/

namespace Acme.Json

open Node

/-- The octets of a text that stand outside of strings, the first octet being inside of one or not. -/
def outside : (isInside : Bool) → Bytes → Bytes
  | false, x :: b => if x = 34 then outside true b else x :: outside false b
  | true, 92 :: _ :: b => outside true b
  | true, x :: b => outside (x != 34) b
  | _, [] => []

/-- There is no white space outside of strings. -/
def Compact (b : Bytes) : Prop := ∀ x ∈ outside false b, isSpace x = false

theorem compact_nil : Compact [] := nofun

/-! ### Strings -/

theorem outside_plain {x : UInt8} (hquote : x ≠ 34) (hbackslash : x ≠ 92) (b : Bytes) :
    outside true (x :: b) = outside true b := by
  have hinside : (x != 34) = true := bne_iff_ne.mpr hquote
  rw [outside, hinside]
  rintro _ _ rfl
  exact absurd rfl hbackslash

/-- A character does not end the string that it is in. -/
theorem outside_escaped (c : Char) (b : Bytes) : outside true (escaped c ++ b) = outside true b := by
  have hhex {x : UInt8} (h : isHexDigit x) : x ≠ 34 ∧ x ≠ 92 := by
    constructor <;> rintro rfl <;> cases h
  rcases escape_cases c with ⟨x, hform, -⟩ | ⟨x, y, hform, hx, hy, -⟩ | ⟨hform, hplain⟩
  · rw [hform]
    rfl
  · rw [hform]
    show outside true (48 :: 48 :: x :: y :: b) = _
    rw [outside_plain (by decide) (by decide), outside_plain (by decide) (by decide),
      outside_plain (hhex hx).1 (hhex hx).2, outside_plain (hhex hy).1 (hhex hy).2]
  · rw [hform]
    generalize String.utf8EncodeChar c = octets at hplain
    induction octets with
    | nil => rfl
    | cons x octets ih =>
      obtain ⟨-, hquote, hbackslash⟩ := hplain x (by simp)
      rw [List.cons_append, outside_plain hquote hbackslash, ih fun y hy => hplain y (by simp [hy])]

/-- Nothing of a string stands outside of it. -/
theorem outside_quoted (s : String) (b : Bytes) :
    outside false (Bytes.ofText (quoted s) ++ b) = outside false b := by
  have hchars (cs : List Char) : outside true (cs.flatMap escaped ++ 34 :: b) = outside false b := by
    induction cs with
    | nil => rfl
    | cons c cs ih => rw [List.flatMap_cons, List.append_assoc, outside_escaped, ih]
  rw [ofText_quoted, List.append_assoc]
  exact hchars s.toList

/-! ### Values -/

/-- The octets of a text that is no string. -/
theorem compact_append {b c : Bytes} (hb : ∀ x ∈ b, x ≠ 34 ∧ isSpace x = false) (h : Compact c) :
    Compact (b ++ c) := by
  induction b with
  | nil => exact h
  | cons x b ih =>
    obtain ⟨hquote, hspace⟩ := hb x (by simp)
    have hrest := ih fun y hy => hb y (by simp [hy])
    rw [Compact, List.cons_append, outside, if_neg hquote]
    exact List.forall_mem_cons.mpr ⟨hspace, hrest⟩

theorem compact_quoted (s : String) {b : Bytes} (h : Compact b) :
    Compact (Bytes.ofText (quoted s) ++ b) := by
  rw [Compact, outside_quoted]
  exact h

theorem compact_decimals (n : Nat) {b : Bytes} (h : Compact b) : Compact (decimals n ++ b) := by
  refine compact_append (fun x hx => ?_) h
  have hdigit := isDigit_of_mem_decimals x hx
  simp only [isDigit, Bool.and_eq_true, decide_eq_true_eq, UInt8.le_iff_toNat_le] at hdigit
  have hne (y : UInt8) (hy : y.toNat < 48) : x ≠ y := by
    rintro rfl
    exact absurd hdigit.1 (Nat.not_le.mpr hy)
  refine ⟨hne 34 (by decide), ?_⟩
  simp [isSpace, hne]

-- by recursion on the value, before any text that is compact itself
mutual

theorem compact_text_append (j : Json) (h : Plain j) {b : Bytes} (hb : Compact b) :
    Compact (Bytes.ofText j.text ++ b) := by
  match j with
  | .null => exact compact_append (by decide +kernel) hb
  | .bool true => exact compact_append (by decide +kernel) hb
  | .bool false => exact compact_append (by decide +kernel) hb
  | .number (.integer (.ofNat n)) => exact compact_decimals n hb
  | .string s => exact compact_quoted s hb
  | .array items =>
    simp only [text, Bytes.ofText_append, List.append_assoc]
    exact compact_append (by decide +kernel)
      (compact_itemsText_append items h (compact_append (by decide +kernel) hb))
  | .object members =>
    simp only [text, Bytes.ofText_append, List.append_assoc]
    exact compact_append (by decide +kernel)
      (compact_membersText_append members h (compact_append (by decide +kernel) hb))

theorem compact_itemsText_append (items : List Json) (h : ItemsPlain items) {b : Bytes}
    (hb : Compact b) : Compact (Bytes.ofText (itemsText items) ++ b) := by
  match items with
  | [] => exact hb
  | [item] => exact compact_text_append item h.1 hb
  | item :: next :: rest =>
    simp only [itemsText, Bytes.ofText_append, List.append_assoc]
    exact compact_text_append item h.1
      (compact_append (by decide +kernel) (compact_itemsText_append (next :: rest) h.2 hb))

theorem compact_membersText_append (members : List (String × Json)) (h : MembersPlain members)
    {b : Bytes} (hb : Compact b) : Compact (Bytes.ofText (membersText members) ++ b) := by
  match members with
  | [] => exact hb
  | [(name, value)] =>
    simp only [membersText, Bytes.ofText_append, List.append_assoc]
    exact compact_quoted name
      (compact_append (by decide +kernel) (compact_text_append value h.1 hb))
  | (name, value) :: next :: rest =>
    simp only [membersText, Bytes.ofText_append, List.append_assoc]
    exact compact_quoted name (compact_append (by decide +kernel) (compact_text_append value h.1
      (compact_append (by decide +kernel) (compact_membersText_append (next :: rest) h.2 hb))))

end

/-- The text of a value has white space inside of strings only. -/
theorem compact_text (j : Json) (h : Plain j) : Compact (Bytes.ofText j.text) := by
  have htext := compact_text_append j h compact_nil
  rwa [List.append_nil] at htext

end Acme.Json
