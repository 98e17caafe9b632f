import Acme.Base64
import Acme.Proofs.Text.Utf8
import Mathlib.Data.List.Induction

/-!
# What base64 writes can be read

The six bits of a symbol are the digit that was written (`symbol_spec`), a group of symbols is one
number cut into digits, and the octets of that number are those of the group (`ofNatWidth_toNat`).
So `decodeGroups` undoes `encode` group by group in both alphabets, and reading the URL-safe form
gives back any octet string (`ofUrl_toUrl`), as does reading the standard form
(`ofStandard_toStandard`).

The digits themselves do not depend on the alphabet (`digitsOf`): what is written is their symbols with
the padding that they lack (`encode_eq`).
-/

namespace Acme

/-- Octets are the digits of their number in base 256. -/
theorem Bytes.ofNatWidth_toNat (b : Bytes) : ofNatWidth b.length (toNat b) = b := by
  -- from the end, where a number is cut
  induction b using List.reverseRecOn with
  | nil => rfl
  | append_singleton b x ih =>
    have hx : x.toNat < 256 := x.toNat_lt
    have hdiv : (toNat b * 256 + x.toNat) / 256 = toNat b := by omega
    have hlast : (toNat b * 256 + x.toNat).toUInt8 = x := by
      rw [← UInt8.toNat_inj, Nat.toUInt8, UInt8.toNat_ofNat']
      omega
    rw [List.length_append, List.length_singleton, ofNatWidth, toNat_append_singleton, hdiv, ih,
      hlast]

namespace Base64

section

variable (a : Alphabet)

/-! ### Symbols -/

/-- A symbol stands for its digit, is an ASCII character and does not pad. -/
theorem symbol_spec (n : Nat) :
    a.value? (a.symbol n) = some (n % 64) ∧ a.symbol n < 128 ∧ a.symbol n ≠ pad := by
  -- a symbol depends on six bits only, so that there are 64 cases in each alphabet
  have hmod : a.symbol n = a.symbol (n % 64) := by simp [Alphabet.symbol]
  have hdigit : ∀ (a : Alphabet) (d : Fin 64),
      a.value? (a.symbol d) = some d.val ∧ a.symbol d < 128 ∧ a.symbol d ≠ pad := by
    intro a
    cases a <;> decide
  rw [hmod]
  exact hdigit a ⟨n % 64, Nat.mod_lt _ (by decide)⟩

theorem values_map_symbol (offset : Nat) (ns : List Nat) :
    values a offset (ns.map a.symbol) = .ok (ns.map (· % 64)) := by
  induction ns generalizing offset with
  | nil => rfl
  | cons n ns ih =>
    rw [List.map_cons, values, (symbol_spec a n).1]
    simp only [ih]
    rfl

theorem takeWhile_map_symbol (ns : List Nat) (rest : Bytes) :
    (ns.map a.symbol ++ rest).takeWhile (· != pad)
      = ns.map a.symbol ++ rest.takeWhile (· != pad) := by
  induction ns with
  | nil => rfl
  | cons n ns ih => simp [(symbol_spec a n).2.2, ih]

theorem dropWhile_map_symbol (ns : List Nat) (rest : Bytes) :
    (ns.map a.symbol ++ rest).dropWhile (· != pad) = rest.dropWhile (· != pad) := by
  induction ns with
  | nil => rfl
  | cons n ns ih => simp [(symbol_spec a n).2.2, ih]

/-! ### Groups -/

/-- The padding of a group pads, and the standard alphabet's completes the group. -/
theorem padding_spec (n : Nat) :
    (a.padding n).takeWhile (· != pad) = [] ∧ (a.padding n).dropWhile (· != pad) = a.padding n
      ∧ (a.padding n).any (· != pad) = false := by
  cases a <;> simp [Alphabet.padding]

/-- A last group whose symbols write the octets `b`, followed by zero bits up to a whole symbol. -/
theorem decodeLast_map_symbol (offset : Nat) (ns : List Nat) (b : Bytes)
    (hlow : 2 ≤ ns.length) (hhigh : ns.length ≤ 4) (hlen : b.length = ns.length * 6 / 8)
    (hn : digits (ns.map (· % 64)) = Bytes.toNat b * Nat.pow 2 (ns.length * 6 % 8)) :
    decodeLast a offset (ns.map a.symbol ++ a.padding ns.length) = .ok b := by
  obtain ⟨htake, hdrop, hany⟩ := padding_spec a ns.length
  have hcount : ¬ ns.length < 2 := by omega
  have hspare : 0 < Nat.pow 2 (ns.length * 6 % 8) := Nat.pow_pos (by decide)
  have hne : ns ≠ [] := by
    rintro rfl
    exact absurd hlow (by decide)
  -- the spare bits are clear, and without them the digits are the number of the octets
  have hbits : ¬ digits (ns.map (· % 64)) % Nat.pow 2 (ns.length * 6 % 8) ≠ 0 := by
    rw [hn, Nat.mul_mod_left]
    exact fun h => h rfl
  have hread : Bytes.ofNatWidth (ns.length * 6 / 8)
      (digits (ns.map (· % 64)) / Nat.pow 2 (ns.length * 6 % 8)) = b := by
    rw [hn, Nat.mul_div_cancel _ hspare, ← hlen, Bytes.ofNatWidth_toNat]
  unfold decodeLast
  simp only [takeWhile_map_symbol, dropWhile_map_symbol, htake, hdrop, List.append_nil,
    values_map_symbol, List.length_map, hany, bind, Except.bind, pure, Except.pure, hcount,
    hbits, hread, decide_false, Bool.or_self, Bool.and_false, Bool.false_eq_true, if_false]
  cases a <;> simp [Alphabet.padding, hne, hhigh]

theorem encode_ne_nil (x : UInt8) (b : Bytes) : encode a (x :: b) ≠ [] := by
  match b with
  | [] | [_] | _ :: _ :: _ => simp [encode]

/-- The digits that an octet string is written with give back its number, moved up by the spare
bits of a last group. -/
theorem digits_group (b : Bytes) :
    match b with
    | [x, y, z] =>
      let n := Bytes.toNat [x, y, z]
      digits ([n / 262144, n / 4096, n / 64, n].map (· % 64)) = n
    | [x, y] =>
      let n := Bytes.toNat [x, y] * 4
      digits ([n / 4096, n / 64, n].map (· % 64)) = n
    | [x] =>
      let n := Bytes.toNat [x] * 16
      digits ([n / 64, n].map (· % 64)) = n
    | _ => True := by
  split
  · rename_i x y z
    -- an octet is less than 256, and the rest is arithmetic
    have hx := x.toNat_lt
    have hy := y.toNat_lt
    have hz := z.toNat_lt
    simp only [digits, Bytes.toNat, List.map_cons, List.map_nil, List.foldl_cons, List.foldl_nil]
    omega
  · rename_i x y
    have hx := x.toNat_lt
    have hy := y.toNat_lt
    simp only [digits, Bytes.toNat, List.map_cons, List.map_nil, List.foldl_cons, List.foldl_nil]
    omega
  · rename_i x
    have hx := x.toNat_lt
    simp only [digits, Bytes.toNat, List.map_cons, List.map_nil, List.foldl_cons, List.foldl_nil]
    omega
  · trivial

/-- Reading undoes writing. -/
theorem decodeGroups_encode (offset : Nat) (b : Bytes) :
    decodeGroups a offset (encode a b) = .ok b := by
  fun_induction encode a b generalizing offset with
  | case1 x y z rest n ih =>
    have hgroup : digits ([n / 262144, n / 4096, n / 64, n].map (· % 64)) = n :=
      digits_group [x, y, z]
    -- a whole group is read on its own only if another one follows
    cases rest with
    | nil =>
      have hlast := decodeLast_map_symbol a offset [n / 262144, n / 4096, n / 64, n] [x, y, z]
        (by simp) (by simp) (by simp) (by simpa [n] using hgroup)
      cases a <;> simpa [encode, decodeGroups, Alphabet.padding] using hlast
    | cons w rest =>
      obtain ⟨s, left, hs⟩ := List.exists_cons_of_ne_nil (encode_ne_nil a w rest)
      have hvalues := values_map_symbol a offset [n / 262144, n / 4096, n / 64, n]
      have hread : Bytes.ofNatWidth 3 n = [x, y, z] := Bytes.ofNatWidth_toNat [x, y, z]
      simp only [List.map_cons, List.map_nil] at hvalues hgroup
      rw [hs, decodeGroups, hvalues, ← hs]
      simp only [bind, Except.bind, pure, Except.pure, ih, hgroup, hread]
      rfl
  | case2 x y n =>
    have hgroup : digits ([n / 4096, n / 64, n].map (· % 64)) = n := digits_group [x, y]
    have hlast := decodeLast_map_symbol a offset [n / 4096, n / 64, n] [x, y] (by simp) (by simp)
      (by simp) (by simpa [n] using hgroup)
    cases a <;> simpa [encode, decodeGroups, Alphabet.padding] using hlast
  | case3 x n =>
    have hgroup : digits ([n / 64, n].map (· % 64)) = n := digits_group [x]
    have hlast := decodeLast_map_symbol a offset [n / 64, n] [x] (by simp) (by simp) (by simp)
      (by simpa [n] using hgroup)
    cases a <;> simpa [encode, decodeGroups, Alphabet.padding] using hlast
  | case4 =>
    rfl

end

variable {a : Alphabet} {b : Bytes}

/-! ### Digits -/

/-- The six-bit digits that octets are written with. Bits that are missing at the end are zero. -/
def digitsOf : Bytes → List Nat
  | x :: y :: z :: rest =>
    let n := Bytes.toNat [x, y, z]
    n / 262144 % 64 :: n / 4096 % 64 :: n / 64 % 64 :: n % 64 :: digitsOf rest
  | [x, y] =>
    let n := Bytes.toNat [x, y] * 4
    [n / 4096 % 64, n / 64 % 64, n % 64]
  | [x] =>
    let n := Bytes.toNat [x] * 16
    [n / 64 % 64, n % 64]
  | [] => []

/-- How many symbols complete the last group. -/
def shortfall (count : Nat) : Nat := (4 - count % 4) % 4

/-- The padding after so many symbols. -/
def Alphabet.fill : Alphabet → Nat → Bytes
  | standard, count => List.replicate (shortfall count) pad
  | urlSafe, _ => []

theorem symbol_mod (a : Alphabet) (n : Nat) : a.symbol (n % 64) = a.symbol n := by
  simp [Alphabet.symbol]

theorem shortfall_add_four (count : Nat) : shortfall (count + 4) = shortfall count := by
  rw [shortfall, shortfall, Nat.add_mod_right]

theorem fill_add_four (a : Alphabet) (count : Nat) : a.fill (count + 4) = a.fill count := by
  cases a with
  | standard => rw [Alphabet.fill, Alphabet.fill, shortfall_add_four]
  | urlSafe => rfl

/-- What is written is the symbols of the digits, and then padding. -/
theorem encode_eq (a : Alphabet) (b : Bytes) :
    encode a b = (digitsOf b).map a.symbol ++ a.fill (digitsOf b).length := by
  fun_induction digitsOf b with
  | case1 x y z rest n ih =>
    simp only [encode, ih, List.map_cons, List.length_cons, symbol_mod, fill_add_four]
    rfl
  | case2 x y n =>
    simp only [encode, List.map_cons, List.map_nil, symbol_mod]
    cases a <;> rfl
  | case3 x n =>
    simp only [encode, List.map_cons, List.map_nil, symbol_mod]
    cases a <;> rfl
  | case4 => cases a <;> rfl

/-! ### Whole texts -/

/-- An octet of a written form is a symbol or pads. -/
theorem symbol_or_pad_of_mem_encode {x : UInt8} (h : x ∈ encode a b) :
    (∃ n, x = a.symbol n) ∨ x = pad := by
  rw [encode_eq] at h
  rcases List.mem_append.mp h with h | h
  · obtain ⟨n, -, rfl⟩ := List.mem_map.mp h
    exact .inl ⟨n, rfl⟩
  · cases a with
    | standard => exact .inr (List.eq_of_mem_replicate h)
    | urlSafe => cases h

/-- Reading undoes writing. -/
theorem decode_encode (a : Alphabet) (b : Bytes) : decode a (encode a b) = .ok b := by
  rw [decode]
  split
  · rename_i s hs
    have hfine : ¬ ((encode a b).length % 4 = 1 ∧ s ≠ pad ∧ a.value? s = none) := by
      rintro ⟨-, hpad, hvalue⟩
      rcases symbol_or_pad_of_mem_encode (List.mem_of_getLast? hs) with ⟨n, rfl⟩ | rfl
      · rw [(symbol_spec a n).1] at hvalue
        cases hvalue
      · exact hpad rfl
    rw [if_neg hfine, decodeGroups_encode]
  · exact decodeGroups_encode a 0 b

/-- The octets of a written form are its characters. -/
theorem ofText_asciiText_encode (a : Alphabet) (b : Bytes) :
    Bytes.ofText (Bytes.asciiText (encode a b)) = encode a b := by
  refine Bytes.ofText_asciiText fun x hx => ?_
  rcases symbol_or_pad_of_mem_encode hx with ⟨n, rfl⟩ | rfl
  · exact (symbol_spec a n).2.1
  · decide

theorem ofText_toUrl (b : Bytes) : Bytes.ofText (toUrl b) = encode .urlSafe b :=
  ofText_asciiText_encode .urlSafe b

theorem ofText_toStandard (b : Bytes) : Bytes.ofText (toStandard b) = encode .standard b :=
  ofText_asciiText_encode .standard b

theorem dropPadding_of_getLast?_ne {b : Bytes} (h : b.getLast? ≠ some pad) : dropPadding b = b := by
  have hdrop : b.reverse.dropWhile (· == pad) = b.reverse := by
    refine List.dropWhile_beq_eq_self_of_head?_ne ?_
    rwa [List.head?_reverse]
  rw [dropPadding, hdrop, List.reverse_reverse]

theorem dropPadding_of_ne_pad {b : Bytes} (h : ∀ x ∈ b, x ≠ pad) : dropPadding b = b :=
  dropPadding_of_getLast?_ne fun hlast => h pad (List.mem_of_getLast? hlast) rfl

/-- Reading the URL-safe form of any octets gives them back. -/
theorem ofUrl_toUrl (b : Bytes) : ofUrl (toUrl b) = .ok b := by
  have hpad : ∀ x ∈ encode .urlSafe b, x ≠ pad := by
    intro x hx
    rw [encode_eq, Alphabet.fill, List.append_nil] at hx
    obtain ⟨n, -, rfl⟩ := List.mem_map.mp hx
    exact (symbol_spec .urlSafe n).2.2
  rw [ofUrl, ofText_toUrl, dropPadding_of_ne_pad hpad, decode_encode]

/-- Reading the standard form of any octets gives them back. -/
theorem ofStandard_toStandard (b : Bytes) : ofStandard (toStandard b) = .ok b := by
  rw [ofStandard, ofText_toStandard, decode_encode]

theorem toUrl_inj {b c : Bytes} : toUrl b = toUrl c ↔ b = c := by
  constructor
  · intro h
    have hread := ofUrl_toUrl b
    rw [h, ofUrl_toUrl] at hread
    exact (Except.ok.inj hread).symm
  · rintro rfl
    rfl

theorem toStandard_inj {b c : Bytes} : toStandard b = toStandard c ↔ b = c := by
  constructor
  · intro h
    have hread := ofStandard_toStandard b
    rw [h, ofStandard_toStandard] at hread
    exact (Except.ok.inj hread).symm
  · rintro rfl
    rfl

/-- Only the octets of nothing are written as nothing. -/
theorem toUrl_eq_empty_iff {b : Bytes} : toUrl b = "" ↔ b = [] :=
  toUrl_inj (c := [])

end Base64

/-! ### Symbols as one number -/

namespace Base64

/-- The symbols of octets in the standard form, and what they come to as digits: the number of the
octets, followed by a zero octet for every symbol that pads. -/
structure Written (b : Bytes) (ns : List Nat) (padding groups : Nat) : Prop where
  encode_eq : encode .standard b = ns.map Alphabet.standard.symbol ++ List.replicate padding pad
  padding_le : padding ≤ 2
  symbols : ns.length + padding = 4 * groups
  octets : b.length + padding = 3 * groups
  digits_eq : digits (ns.map (· % 64) ++ List.replicate padding 0)
    = Bytes.toNat b * Bytes.capacity padding

theorem digits_append (vs ws : List Nat) :
    digits (vs ++ ws) = digits vs * Nat.pow 64 ws.length + digits ws := by
  induction ws using List.reverseRecOn with
  | nil => simp [digits]
  | append_singleton ws w ih =>
    have hlast (vs : List Nat) : digits (vs ++ [w]) = digits vs * 64 + w := by simp [digits]
    have hpow : Nat.pow 64 (ws.length + 1) = Nat.pow 64 ws.length * 64 := rfl
    rw [← List.append_assoc, hlast, hlast, ih, List.length_append, List.length_singleton, hpow,
      Nat.add_mul, Nat.mul_assoc, Nat.add_assoc]

end Base64

theorem Bytes.capacity_add (m n : Nat) : capacity (m + n) = capacity m * capacity n :=
  Nat.pow_add 256 m n

theorem Bytes.toNat_append (b c : Bytes) : toNat (b ++ c) = toNat b * capacity c.length + toNat c := by
  induction c using List.reverseRecOn with
  | nil => simp [toNat, capacity]
  | append_singleton c x ih =>
    rw [← List.append_assoc, toNat_append_singleton, toNat_append_singleton, ih, List.length_append,
      List.length_singleton, capacity_succ, Nat.add_mul, Nat.mul_assoc, Nat.add_assoc,
      Nat.mul_comm 256]

namespace Base64

/-- Four digits in base 64 have as much room as three octets. -/
theorem pow_groups (groups : Nat) : Nat.pow 64 (4 * groups) = Bytes.capacity (3 * groups) := by
  show 64 ^ (4 * groups) = 256 ^ (3 * groups)
  rw [Nat.pow_mul, Nat.pow_mul]

/-- Octets are written group by group, and only the last one may have to be filled up. -/
theorem exists_written (b : Bytes) : ∃ ns padding groups, Written b ns padding groups := by
  fun_induction encode .standard b with
  | case1 x y z rest n ih =>
    obtain ⟨ns, padding, groups, h⟩ := ih
    have hgroup : digits ([n / 262144, n / 4096, n / 64, n].map (· % 64)) = n :=
      digits_group [x, y, z]
    refine ⟨n / 262144 :: n / 4096 :: n / 64 :: n :: ns, padding, groups + 1, ?_, h.padding_le, ?_, ?_, ?_⟩
    · rw [encode, h.encode_eq]
      rfl
    · have := h.symbols
      simp only [List.length_cons]
      omega
    · have := h.octets
      simp only [List.length_cons]
      omega
    · -- a whole group stands in front, moved up by the digits of the groups that follow
      have hsplit : (n / 262144 :: n / 4096 :: n / 64 :: n :: ns).map (· % 64)
          = [n / 262144, n / 4096, n / 64, n].map (· % 64) ++ ns.map (· % 64) := rfl
      have hoctets : x :: y :: z :: rest = [x, y, z] ++ rest := rfl
      have hlength : (ns.map (· % 64) ++ List.replicate padding 0).length = 4 * groups := by
        rw [List.length_append, List.length_map, List.length_replicate, h.symbols]
      rw [hsplit, List.append_assoc, digits_append, hgroup, h.digits_eq, hlength, pow_groups, ← h.octets,
        hoctets, Bytes.toNat_append]
      show _ = (n * _ + _) * _
      rw [Bytes.capacity_add, Nat.add_mul, Nat.mul_assoc]
  | case2 x y n =>
    have hgroup : digits ([n / 4096, n / 64, n].map (· % 64)) = n := digits_group [x, y]
    refine ⟨[n / 4096, n / 64, n], 1, 1, rfl, by decide, rfl, rfl, ?_⟩
    rw [digits_append, hgroup]
    show n * 64 + 0 = _ * 256
    omega
  | case3 x n =>
    have hgroup : digits ([n / 64, n].map (· % 64)) = n := digits_group [x]
    refine ⟨[n / 64, n], 2, 1, rfl, by decide, rfl, rfl, ?_⟩
    rw [digits_append, hgroup]
    show n * 4096 + 0 = _ * 65536
    omega
  | case4 => exact ⟨[], 0, 0, rfl, by decide, rfl, rfl, rfl⟩

end Base64

end Acme
