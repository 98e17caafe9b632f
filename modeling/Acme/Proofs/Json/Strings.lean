import Acme.Json.Value
import Acme.Proofs.Text.Utf8

/-!
# Written strings

What `Json.quoted` puts between the quotation marks (`written`), octet by octet. A character is
written in one of three ways (`escape_cases`): as a backslash with one more character, with four
hexadecimal digits, or as it is. In each of them `Node.unescaped` gives the character back, so a
written string is read as the text that was written (`writtenText?_written`).
-/

namespace Acme.Json

/-- The octets of one character inside a string. -/
def escaped (c : Char) : Bytes := (escape c).flatMap String.utf8EncodeChar

/-- The octets of a string without its quotation marks. -/
def written (s : String) : Bytes := s.toList.flatMap escaped

theorem ofText_quoted (s : String) : Bytes.ofText (quoted s) = 34 :: written s ++ [34] := by
  have hquote : String.utf8EncodeChar '"' = [34] := by decide
  have hbody : (s.toList.flatMap escape).flatMap String.utf8EncodeChar = written s :=
    List.flatMap_assoc ..
  rw [quoted, Bytes.ofText_ofList]
  simp [hbody, hquote]

/-! ### One character -/

/-- The characters that have a short escape, with the octet that follows the backslash. -/
theorem shortEscape?_cases {c e : Char} (h : shortEscape? c = some e) :
    (c, e) ∈ [('"', '"'), ('\\', '\\'), ('\x08', 'b'), ('\x0c', 'f'), ('\n', 'n'), ('\r', 'r'),
      ('\t', 't')] := by
  unfold shortEscape? at h
  repeat' split at h
  all_goals cases h <;> simp [*]

theorem ne_of_shortEscape?_none {c : Char} (h : shortEscape? c = none) : c ≠ '"' ∧ c ≠ '\\' := by
  grind [shortEscape?]

theorem hexDigit_spec {n : Nat} (h : n < 16) :
    ∃ x, String.utf8EncodeChar (Bytes.hexDigit n) = [x] ∧ Node.isHexDigit x
      ∧ Node.hexValue x = n := by
  have hdigit : ∀ n : Fin 16,
      String.utf8EncodeChar (Bytes.hexDigit n) = [(Bytes.hexDigit n).toNat.toUInt8]
        ∧ Node.isHexDigit (Bytes.hexDigit n).toNat.toUInt8
        ∧ Node.hexValue (Bytes.hexDigit n).toNat.toUInt8 = n := by decide
  exact ⟨_, hdigit ⟨n, h⟩⟩

/-- The three ways in which a character is written. -/
theorem escape_cases (c : Char) :
    (∃ x, escaped c = [92, x] ∧ x ≠ 117 ∧ Node.isEscape x
      ∧ String.utf8EncodeChar c = [Node.unescape x])
    ∨ (∃ x y, escaped c = [92, 117, 48, 48, x, y] ∧ Node.isHexDigit x ∧ Node.isHexDigit y
      ∧ Node.hexNumber 48 48 x y = c.toNat ∧ c.toNat < 32)
    ∨ (escaped c = String.utf8EncodeChar c
      ∧ ∀ x ∈ String.utf8EncodeChar c, ¬ x < 32 ∧ x ≠ 34 ∧ x ≠ 92) := by
  cases hshort : shortEscape? c with
  | some e =>
    refine .inl ?_
    -- the characters with a short form, one by one
    have hmem := shortEscape?_cases hshort
    simp only [List.mem_cons, List.not_mem_nil, or_false, Prod.mk.injEq] at hmem
    rcases hmem with ⟨rfl, rfl⟩ | ⟨rfl, rfl⟩ | ⟨rfl, rfl⟩ | ⟨rfl, rfl⟩ | ⟨rfl, rfl⟩ | ⟨rfl, rfl⟩
      | ⟨rfl, rfl⟩
    · exact ⟨34, by decide⟩
    · exact ⟨92, by decide⟩
    · exact ⟨98, by decide⟩
    · exact ⟨102, by decide⟩
    · exact ⟨110, by decide⟩
    · exact ⟨114, by decide⟩
    · exact ⟨116, by decide⟩
  | none =>
    refine .inr ?_
    by_cases hcontrol : c.toNat < 32
    · refine .inl ?_
      -- other controls have a code, of which only the last two digits vary
      obtain ⟨x, hx, hxdigit, hxvalue⟩ := hexDigit_spec (n := c.toNat / 16) (by omega)
      obtain ⟨y, hy, hydigit, hyvalue⟩ := hexDigit_spec (n := c.toNat % 16) (by omega)
      refine ⟨x, y, ?_, hxdigit, hydigit, ?_, hcontrol⟩
      · have hlead : (['\\', 'u', '0', '0'] : List Char).flatMap String.utf8EncodeChar
            = [92, 117, 48, 48] := by decide
        rw [escaped, escape, hshort]
        simp only [hcontrol, ↓reduceIte]
        show (['\\', 'u', '0', '0'] ++ [_, _]).flatMap String.utf8EncodeChar = _
        rw [List.flatMap_append, hlead]
        simp [hx, hy]
      · have hzero : Node.hexValue 48 = 0 := by decide
        simp only [Node.hexNumber, List.foldl_cons, List.foldl_nil, hzero, hxvalue, hyvalue]
        omega
    · refine .inr ⟨?_, ?_⟩
      · rw [escaped, escape, hshort]
        simp [hcontrol]
      · intro x hx
        obtain ⟨hquote, hbackslash⟩ := ne_of_shortEscape?_none hshort
        -- all others are written as they are: one octet, or several that are not in ASCII
        by_cases hascii : c.toNat < 128
        · rw [Bytes.utf8EncodeChar_of_lt hascii, List.mem_singleton] at hx
          have hvalue : x.toNat = c.toNat := by
            rw [hx, Nat.toUInt8, UInt8.toNat_ofNat']
            omega
          have hne (d : Char) (hd : c ≠ d) : c.toNat ≠ d.toNat :=
            fun h => hd (Char.toNat_inj.mp h)
          refine ⟨?_, ?_, ?_⟩
          · rw [UInt8.lt_iff_toNat_lt, hvalue]
            exact hcontrol
          · rintro rfl
            exact hne '"' hquote hvalue.symm
          · rintro rfl
            exact hne '\\' hbackslash hvalue.symm
        · have hx := Bytes.le_of_mem_utf8EncodeChar (by omega) hx
          rw [UInt8.le_iff_toNat_le] at hx
          refine ⟨?_, ?_, ?_⟩
          · rw [UInt8.lt_iff_toNat_lt]
            exact Nat.not_lt.mpr (Nat.le_trans (by decide) hx)
          · rintro rfl
            exact absurd hx (by decide)
          · rintro rfl
            exact absurd hx (by decide)

/-! ### Whole strings -/

theorem unescaped_append {b : Bytes} (h : ∀ x ∈ b, x ≠ 92) (rest : Bytes) :
    Node.unescaped (b ++ rest) = (Node.unescaped rest).map (b ++ ·) := by
  induction b with
  | nil => simp
  | cons x b ih =>
    have hx : x ≠ 92 := h x (by simp)
    rw [List.cons_append, Node.unescaped, ih fun y hy => h y (by simp [hy])]
    · simp [Function.comp_def]
    · rintro _ _ _ _ _ rfl
      exact absurd rfl hx
    · rintro _ _ rfl
      exact absurd rfl hx

/-- Undoing the escape of one character, whatever follows it. -/
theorem unescaped_escaped (c : Char) (rest : Bytes) :
    Node.unescaped (escaped c ++ rest)
      = (Node.unescaped rest).map (String.utf8EncodeChar c ++ ·) := by
  rcases escape_cases c with ⟨x, hform, hx, -, hchar⟩ | ⟨x, y, hform, -, -, hnumber, hcontrol⟩
    | ⟨hform, hplain⟩
  · rw [hform, hchar]
    show Node.unescaped (92 :: x :: rest) = _
    rw [Node.unescaped]
    · rfl
    · rintro _ _ _ _ _ rfl
      exact absurd rfl hx
  · have hutf8 : Node.utf8 c.toNat = String.utf8EncodeChar c := by
      rw [Node.utf8, Char.ofNat_toNat]
      simp [Bytes.ofText_eq_flatMap]
    rw [hform]
    show Node.unescaped (92 :: 117 :: 48 :: 48 :: x :: y :: rest) = _
    rw [Node.unescaped.eq_def]
    simp only [hnumber, hutf8]
    -- a control is no half of a pair
    rw [if_neg (by omega), if_neg (by omega)]
  · rw [hform, unescaped_append fun x hx => (hplain x hx).2.2]

theorem unescaped_written (s : String) : Node.unescaped (written s) = some (Bytes.ofText s) := by
  have hchars (cs : List Char) : Node.unescaped (cs.flatMap escaped)
      = some (cs.flatMap String.utf8EncodeChar) := by
    induction cs with
    | nil => rfl
    | cons c cs ih => simp [unescaped_escaped, ih]
  rw [written, hchars, Bytes.ofText_eq_flatMap]

/-- A written string stands for the text that was written. -/
@[simp] theorem writtenText?_written (s : String) : Node.writtenText? (written s) = some s := by
  rw [Node.writtenText?, unescaped_written]
  exact Bytes.text?_ofText s

end Acme.Json
