import Acme.Json.Value
import Acme.Proofs.Text.Utf8
import Mathlib.Data.List.TakeWhile

/-!
# Written numbers

The octets of a natural number (`decimals`), from which `Node.nat?` gets the number back
(`nat?_decimals`). Most facts are by recursion on the number: all its digits but the last are those
of a tenth of it.
-/

namespace Acme.Json

/-- The octets that a natural number is written with. -/
def decimals (n : Nat) : Bytes := Bytes.ofText (Number.integer n).text

/-- The octet of a digit. -/
def digitOctet (n : Nat) : UInt8 := (48 + n % 10).toUInt8

theorem toNat_digitOctet (n : Nat) : (digitOctet n).toNat = 48 + n % 10 := by
  rw [digitOctet, Nat.toUInt8, UInt8.toNat_ofNat']
  omega

theorem isDigit_digitOctet (n : Nat) : Node.isDigit (digitOctet n) := by
  simp only [Node.isDigit, Bool.and_eq_true, decide_eq_true_eq, UInt8.le_iff_toNat_le,
    toNat_digitOctet]
  exact ⟨by simp, by simp; omega⟩

theorem utf8EncodeChar_digitChar {n : Nat} (h : n < 10) :
    String.utf8EncodeChar n.digitChar = [digitOctet n] := by
  have hdigit : ∀ n : Fin 10, String.utf8EncodeChar (n : Nat).digitChar = [digitOctet n] := by decide
  exact hdigit ⟨n, h⟩

theorem decimals_eq_flatMap (n : Nat) :
    decimals n = (Nat.toDigits 10 n).flatMap String.utf8EncodeChar := by
  show Bytes.ofText (Nat.repr n) = _
  rw [Nat.repr_eq_ofList_toDigits, Bytes.ofText_ofList]

theorem decimals_of_lt {n : Nat} (h : n < 10) : decimals n = [digitOctet n] := by
  rw [decimals_eq_flatMap, Nat.toDigits_of_lt_base h, List.flatMap_singleton,
    utf8EncodeChar_digitChar h]

theorem decimals_of_le {n : Nat} (h : 10 ≤ n) : decimals n = decimals (n / 10) ++ [digitOctet n] := by
  rw [decimals_eq_flatMap, decimals_eq_flatMap, Nat.toDigits_of_base_le (by omega) h,
    List.flatMap_append, List.flatMap_singleton, utf8EncodeChar_digitChar (Nat.mod_lt n (by omega))]
  simp [digitOctet]

theorem decimals_ne_nil (n : Nat) : decimals n ≠ [] := by
  by_cases h : n < 10
  · simp [decimals_of_lt h]
  · simp [decimals_of_le (Nat.not_lt.mp h)]

theorem isDigit_of_mem_decimals {n : Nat} : ∀ x ∈ decimals n, Node.isDigit x := by
  induction n using Nat.strongRecOn with
  | ind n ih =>
    by_cases h : n < 10
    · rw [decimals_of_lt h]
      simp [isDigit_digitOctet]
    · rw [decimals_of_le (by omega)]
      intro x hx
      rcases List.mem_append.mp hx with hx | hx
      · exact ih (n / 10) (by omega) x hx
      · rw [List.mem_singleton.mp hx]
        exact isDigit_digitOctet n

namespace Node

/-- The digits of a number write the number. -/
@[simp] theorem digits_decimals (n : Nat) : digits (decimals n) = n := by
  induction n using Nat.strongRecOn with
  | ind n ih =>
    by_cases h : n < 10
    · rw [decimals_of_lt h, digits, List.foldl_cons, List.foldl_nil, toNat_digitOctet]
      omega
    · have hlead := ih (n / 10) (by omega)
      rw [digits] at hlead
      rw [decimals_of_le (by omega), digits, List.foldl_append, hlead, List.foldl_cons, List.foldl_nil,
        toNat_digitOctet]
      omega

/-- Digits alone are a whole number without a sign. -/
theorem decimal_of_digits {ds : Bytes} (h : ∀ x ∈ ds, isDigit x) :
    decimal ds = ⟨false, ds, [], 0, true⟩ := by
  have hsign : (ds.head? == some 45) = false := by
    cases ds with
    | nil => rfl
    | cons x ds =>
      have hx := h x (by simp)
      rw [List.head?_cons, beq_eq_false_iff_ne, ne_eq, Option.some.injEq]
      rintro rfl
      cases hx
  have hwhole : ds.takeWhile isDigit = ds := List.takeWhile_eq_self_iff.mpr h
  have hrest : ds.dropWhile isDigit = [] := List.dropWhile_eq_nil_iff.mpr h
  simp [decimal, hsign, hwhole, hrest, digits]

/-- A number that fits its bits is read from its digits. -/
theorem nat?_decimals {bits n : Nat} (hbits : bits ≤ 64) (h : n < Nat.pow 2 bits) :
    nat? bits (.number (decimals n)) = some n := by
  have hlimit : n < Nat.pow 2 64 := Nat.lt_of_lt_of_le h (Nat.pow_le_pow_right (by omega) hbits)
  have hinteger : (decimal (decimals n)).integer? = some (n : Int) := by
    rw [decimal_of_digits isDigit_of_mem_decimals, Decimal.integer?]
    simp only [digits_decimals]
    exact if_pos hlimit
  rw [nat?, number?]
  simp only [hinteger]
  exact if_pos h

/-- A number that has been read fits its bits. -/
theorem lt_of_nat? {bits n : Nat} {a : Node} (h : nat? bits a = some n) : n < Nat.pow 2 bits := by
  unfold nat? at h
  split at h
  · split at h
    · cases h
      assumption
    · cases h
  · cases h

end Node

end Acme.Json
