import Acme.Proofs.Base64
import Acme.Proofs.FirstFailure
import Mathlib.Data.List.DropRight
import Mathlib.Data.List.Nodup

/-!
# The texts that are base64

An octet string is written with a list of six-bit digits, and what a list of digits has to be like for
that does not depend on the alphabet (`Whole`): it does not end one digit into a group, and its last
digit has no bits set beyond the last octet. Both directions are short: what is written is whole
(`whole_digitsOf`), and whole digits are those of some octets (`exists_digitsOf`).

A group that is read tells its digits, and they are whole (`whole_of_decodeGroups`). So reading undoes
writing and accepts nothing else (`decode_eq_ok_iff`), and a text can be read exactly if it is
`Canonical`, which is said in terms of its characters alone.
-/

namespace Acme

namespace Base64

variable {a : Alphabet} {ns : List Nat}

/-! ### Whole digits -/

/-- Digits that make up whole octets. -/
structure Whole (ns : List Nat) : Prop where
  lt : ∀ n ∈ ns, n < 64
  length : ns.length % 4 ≠ 1
  /-- Each symbol that the last group lacks leaves two bits of the last digit without an octet. -/
  spare : ∀ n ∈ ns.getLast?, n % Nat.pow 4 (shortfall ns.length) = 0

theorem Whole.nil : Whole [] := ⟨nofun, by decide, nofun⟩

/-- A group in front changes nothing. -/
theorem whole_append_iff {group : List Nat} (hgroup : group.length = 4) (hlt : ∀ n ∈ group, n < 64) :
    Whole (group ++ ns) ↔ Whole ns := by
  have hlength : (group ++ ns).length = ns.length + 4 := by
    rw [List.length_append, hgroup, Nat.add_comm]
  have hlast : ∀ n, ns ≠ [] → (n ∈ (group ++ ns).getLast? ↔ n ∈ ns.getLast?) := by
    intro n hne
    rw [List.getLast?_append_of_ne_nil _ hne]
  constructor
  · intro h
    have hrest := h.length
    have hspare := h.spare
    rw [hlength, Nat.add_mod_right] at hrest
    rw [hlength, shortfall_add_four] at hspare
    refine ⟨fun n hn => h.lt n (List.mem_append_right _ hn), hrest, fun n hn => ?_⟩
    have hne : ns ≠ [] := by
      rintro rfl
      cases hn
    exact hspare n ((hlast n hne).mpr hn)
  · intro h
    refine ⟨fun n hn => ?_, ?_, fun n hn => ?_⟩
    · rcases List.mem_append.mp hn with hn | hn
      · exact hlt n hn
      · exact h.lt n hn
    · rw [hlength, Nat.add_mod_right]
      exact h.length
    · rw [hlength, shortfall_add_four]
      by_cases hne : ns = []
      · -- a group that is complete has no spare bits
        rw [hne]
        exact Nat.mod_one n
      · exact h.spare n ((hlast n hne).mp hn)

/-- What is written is whole. -/
theorem whole_digitsOf (b : Bytes) : Whole (digitsOf b) := by
  have hlt (n : Nat) : n % 64 < 64 := Nat.mod_lt n (by decide)
  fun_induction digitsOf b with
  | case1 x y z rest n ih =>
    have hgroup : ∀ d ∈ [n / 262144 % 64, n / 4096 % 64, n / 64 % 64, n % 64], d < 64 := by
      simp only [List.mem_cons, List.not_mem_nil, or_false]
      rintro d (rfl | rfl | rfl | rfl) <;> exact hlt _
    exact (whole_append_iff rfl hgroup).mpr ih
  | case2 x y n =>
    refine ⟨?_, by simp, ?_⟩
    · simp only [List.mem_cons, List.not_mem_nil, or_false]
      rintro d (rfl | rfl | rfl) <;> exact hlt _
    · rintro d ⟨⟩
      show Bytes.toNat [x, y] * 4 % 64 % 4 = 0
      omega
  | case3 x n =>
    refine ⟨?_, by simp, ?_⟩
    · simp only [List.mem_cons, List.not_mem_nil, or_false]
      rintro d (rfl | rfl) <;> exact hlt _
    · rintro d ⟨⟩
      show Bytes.toNat [x] * 16 % 64 % 16 = 0
      omega
  | case4 => exact Whole.nil

/-- A number with room in so many octets is written with them. -/
theorem exists_octets (width n : Nat) (h : n < Bytes.capacity width) :
    ∃ b : Bytes, b.length = width ∧ Bytes.toNat b = n :=
  ⟨Bytes.ofNatWidth width n, Bytes.length_ofNatWidth width n, by
    rw [Bytes.toNat_ofNatWidth, Nat.mod_eq_of_lt h]⟩

/-- Whole digits are those of some octets. -/
theorem exists_digitsOf {ns : List Nat} (h : Whole ns) : ∃ b, digitsOf b = ns := by
  match ns with
  | [] => exact ⟨[], rfl⟩
  | [v] => exact absurd rfl h.length
  | [v, w] =>
    have hv : v < 64 := h.lt v (by simp)
    have hw : w < 64 := h.lt w (by simp)
    -- the spare bits are clear, so that nothing is lost when they are dropped
    have hspare : w % 16 = 0 := h.spare w rfl
    obtain ⟨b, hlength, hb⟩ := exists_octets 1 ((v * 64 + w) / 16)
      (by show _ < 256; omega)
    obtain ⟨x, rfl⟩ := List.length_eq_one_iff.mp hlength
    refine ⟨[x], ?_⟩
    simp only [digitsOf, hb, List.cons.injEq, and_true]
    omega
  | [v, w, x] =>
    have hv : v < 64 := h.lt v (by simp)
    have hw : w < 64 := h.lt w (by simp)
    have hx : x < 64 := h.lt x (by simp)
    have hspare : x % 4 = 0 := h.spare x rfl
    obtain ⟨b, hlength, hb⟩ := exists_octets 2 ((v * 4096 + w * 64 + x) / 4)
      (by show _ < 65536; omega)
    obtain ⟨y, z, rfl⟩ := List.length_eq_two.mp hlength
    refine ⟨[y, z], ?_⟩
    simp only [digitsOf, hb, List.cons.injEq, and_true]
    omega
  | v :: w :: x :: y :: rest =>
    have hv : v < 64 := h.lt v (by simp)
    have hw : w < 64 := h.lt w (by simp)
    have hx : x < 64 := h.lt x (by simp)
    have hy : y < 64 := h.lt y (by simp)
    have hgroup : ∀ n ∈ [v, w, x, y], n < 64 := fun n hn => h.lt n (by simp at hn ⊢; tauto)
    -- a whole group and what follows it, by recursion
    have hrest : Whole rest := (whole_append_iff rfl hgroup).mp h
    obtain ⟨c, hc⟩ := exists_digitsOf hrest
    obtain ⟨b, hlength, hb⟩ := exists_octets 3 (v * 262144 + w * 4096 + x * 64 + y)
      (by show _ < 16777216; omega)
    obtain ⟨p, q, r, rfl⟩ := List.length_eq_three.mp hlength
    refine ⟨p :: q :: r :: c, ?_⟩
    simp only [digitsOf, hb, hc, List.cons.injEq, and_true]
    omega

/-! ### Reading -/

theorem value?_spec {s : UInt8} {v : Nat} (h : a.value? s = some v) : v < 64 ∧ a.symbol v = s := by
  have hall : ∀ (a : Alphabet) (s : Fin 256), ∀ v ∈ a.value? s.val.toUInt8,
      v < 64 ∧ a.symbol v = s.val.toUInt8 := by
    intro a
    cases a <;> decide +kernel
  have hs : s.toNat.toUInt8 = s := by simp [Nat.toUInt8]
  have hspec := hall a ⟨s.toNat, s.toNat_lt⟩
  rw [hs] at hspec
  exact hspec v h

/-- Symbols that are read are those of the digits that they stand for. -/
theorem symbols_of_values {offset : Nat} {symbols : Bytes} {vs : List Nat}
    (h : values a offset symbols = .ok vs) : symbols = vs.map a.symbol ∧ ∀ v ∈ vs, v < 64 := by
  induction symbols generalizing offset vs with
  | nil =>
    cases h
    exact ⟨rfl, nofun⟩
  | cons s rest ih =>
    rw [values] at h
    cases hs : a.value? s with
    | none =>
      rw [hs] at h
      cases h
    | some v =>
      rw [hs] at h
      obtain ⟨ws, hrest, rfl⟩ := map_eq_ok_iff.mp h
      obtain ⟨hlt, hsymbol⟩ := value?_spec hs
      obtain ⟨hmap, hall⟩ := ih hrest
      refine ⟨by rw [List.map_cons, hsymbol, hmap], ?_⟩
      rintro w (_ | ⟨_, hw⟩)
      · exact hlt
      · exact hall w hw

/-- What a last group that is read consists of. -/
structure LastGroup (a : Alphabet) (group : Bytes) (vs : List Nat) (padding : Bytes) : Prop where
  eq : group = vs.map a.symbol ++ padding
  lt : ∀ v ∈ vs, v < 64
  pads : ∀ x ∈ padding, x = pad
  two_le : 2 ≤ vs.length
  room : match a with
    | .standard => group.length = 4
    | .urlSafe => padding = []
  spare : digits vs % Nat.pow 2 (vs.length * 6 % 8) = 0

theorem exists_lastGroup {offset : Nat} {group b : Bytes} (hne : group ≠ [])
    (h : decodeLast a offset group = .ok b) : ∃ vs padding, LastGroup a group vs padding := by
  have hsplit := List.takeWhile_append_dropWhile (p := (· != pad)) (l := group)
  unfold decodeLast at h
  dsimp only at h
  cases hvalues : values a offset (group.takeWhile (· != pad)) with
  | error e =>
    rw [hvalues] at h
    cases h
  | ok vs =>
    obtain ⟨hmap, hlt⟩ := symbols_of_values hvalues
    have hcount : (group.takeWhile (· != pad)).length = vs.length := by rw [hmap, List.length_map]
    rw [hvalues] at h
    simp only [bind, Except.bind, throw, throwThe, MonadExceptOf.throw, pure, Except.pure, hcount,
      List.isEmpty_iff, hne, if_false] at h
    -- the checks one after another, each of which has to be passed
    split at h
    · cases h
    rename_i hpads
    split at h
    · cases h
    rename_i htwo
    have hpadding : ∀ x ∈ group.dropWhile (· != pad), x = pad := by
      intro x hx
      by_contra hpad
      apply hpads
      simp only [Bool.and_eq_true, Bool.or_eq_true, Bool.not_eq_true', List.isEmpty_eq_false_iff,
        List.any_eq_true, bne_iff_ne]
      exact ⟨List.ne_nil_of_mem hx, .inr ⟨x, hx, hpad⟩⟩
    have hparts : group = vs.map a.symbol ++ group.dropWhile (· != pad) := by rw [← hmap, hsplit]
    refine ⟨vs, group.dropWhile (· != pad), hparts, hlt, hpadding, Nat.not_lt.mp htwo, ?_, ?_⟩
    · cases a with
      | standard =>
        dsimp only at h ⊢
        split at h
        · cases h
        · rename_i hfour
          exact not_ne_iff.mp hfour
      | urlSafe =>
        dsimp only at h ⊢
        split at h
        · cases h
        · rename_i hnone
          rw [Bool.not_eq_true, Bool.not_eq_false'] at hnone
          exact List.isEmpty_iff.mp hnone
    · cases a <;>
      · dsimp only at h
        split at h
        · cases h
        split at h
        · cases h
        · rename_i hspare
          exact not_ne_iff.mp hspare

/-- Bits that a last digit has to spare are bits that the number of all digits has to spare. -/
theorem digits_concat_mod (vs : List Nat) (v spare : Nat) (h : 64 % spare = 0) :
    digits (vs ++ [v]) % spare = v % spare := by
  have hlast : digits (vs ++ [v]) = digits vs * 64 + v := by simp [digits]
  rw [hlast, Nat.add_mod, Nat.mul_mod, h, Nat.mul_zero, Nat.zero_mod, Nat.zero_add, Nat.mod_mod]

theorem LastGroup.whole {group padding : Bytes} {vs : List Nat} (h : LastGroup a group vs padding)
    (hfour : group.length ≤ 4) : group = vs.map a.symbol ++ a.fill vs.length ∧ Whole vs := by
  have hlength : group.length = vs.length + padding.length := by
    rw [h.eq, List.length_append, List.length_map]
  have htwo := h.two_le
  -- the spare bits counted from the end of the octets and from that of the digits
  have hspare : Nat.pow 2 (vs.length * 6 % 8) = Nat.pow 4 (shortfall vs.length)
      ∧ 64 % Nat.pow 4 (shortfall vs.length) = 0 := by
    obtain hcount | hcount | hcount : vs.length = 2 ∨ vs.length = 3 ∨ vs.length = 4 := by omega
    all_goals rw [hcount]; decide
  refine ⟨?_, h.lt, by omega, fun v hv => ?_⟩
  · have hfill : padding = a.fill vs.length := by
      have hroom := h.room
      cases a with
      | standard =>
        -- the standard form has to be filled up to four
        have hcount : padding.length = shortfall vs.length := by
          rw [shortfall]
          dsimp only at hroom
          omega
        rw [Alphabet.fill, ← hcount]
        exact List.eq_replicate_iff.mpr ⟨rfl, h.pads⟩
      | urlSafe => exact hroom
    rw [← hfill]
    exact h.eq
  · obtain ⟨front, hfront⟩ : ∃ front, vs = front ++ [v] := List.getLast?_eq_some_iff.mp hv
    have hzero := h.spare
    rw [hspare.1, hfront, digits_concat_mod _ _ _ (hfront ▸ hspare.2)] at hzero
    rw [hfront]
    exact hzero

/-- Symbols that are read are those of whole digits with their padding. -/
theorem whole_of_decodeGroups {offset : Nat} {symbols b : Bytes}
    (h : decodeGroups a offset symbols = .ok b) :
    ∃ ns, symbols = ns.map a.symbol ++ a.fill ns.length ∧ Whole ns := by
  fun_induction decodeGroups a offset symbols generalizing b with
  | case1 offset s₁ s₂ s₃ s₄ next rest ih =>
    obtain ⟨vs, hvalues, h⟩ := bind_eq_ok_iff.mp h
    obtain ⟨c, hrest, -⟩ := bind_eq_ok_iff.mp h
    obtain ⟨hmap, hlt⟩ := symbols_of_values hvalues
    obtain ⟨ns, hns, hwhole⟩ := ih hrest
    have hfour : vs.length = 4 := by rw [← List.length_map (f := a.symbol), ← hmap]; rfl
    refine ⟨vs ++ ns, ?_, (whole_append_iff hfour hlt).mpr hwhole⟩
    -- four digits more need no other padding
    have hlength : (vs ++ ns).length = ns.length + 4 := by
      rw [List.length_append, hfour, Nat.add_comm]
    rw [hlength, fill_add_four, List.map_append, List.append_assoc, ← hns, ← hmap]
    rfl
  | case2 offset group hgroup =>
    by_cases hne : group = []
    · refine ⟨[], ?_, Whole.nil⟩
      rw [hne]
      cases a <;> rfl
    · have hfour : group.length ≤ 4 := by
        by_contra hlong
        match group, hgroup with
        | s₁ :: s₂ :: s₃ :: s₄ :: next :: rest, hgroup => exact hgroup s₁ s₂ s₃ s₄ next rest rfl
        | [], _ | [_], _ | [_, _], _ | [_, _, _], _ | [_, _, _, _], _ => simp at hlong
      obtain ⟨vs, padding, hlast⟩ := exists_lastGroup hne h
      obtain ⟨heq, hwhole⟩ := hlast.whole hfour
      exact ⟨vs, heq, hwhole⟩

/-- Reading undoes writing and accepts nothing else. -/
theorem decode_eq_ok_iff {symbols b : Bytes} : decode a symbols = .ok b ↔ symbols = encode a b := by
  constructor
  · intro h
    have hgroups : decodeGroups a 0 symbols = .ok b := by
      unfold decode at h
      split at h
      · split at h
        · cases h
        · exact h
      · exact h
    obtain ⟨ns, hsymbols, hwhole⟩ := whole_of_decodeGroups hgroups
    obtain ⟨c, rfl⟩ := exists_digitsOf hwhole
    rw [← encode_eq] at hsymbols
    rw [hsymbols, decodeGroups_encode] at hgroups
    cases hgroups
    exact hsymbols
  · rintro rfl
    exact decode_encode a b

/-! ### Texts and their padding -/

/-- A text without the equals signs at its end. -/
def unpadded (s : String) : String := String.ofList (s.toList.rdropWhile (· == '='))

theorem dropPadding_concat_pad (b : Bytes) : dropPadding (b ++ [pad]) = dropPadding b := by
  simp [dropPadding]

theorem ofText_unpadded (s : String) : Bytes.ofText (unpadded s) = dropPadding (Bytes.ofText s) := by
  rw [unpadded, Bytes.ofText_ofList, Bytes.ofText_eq_flatMap]
  -- from the end, where characters are dropped
  induction s.toList using List.reverseRecOn with
  | nil => rfl
  | append_singleton cs c ih =>
    rw [List.flatMap_append, List.flatMap_singleton]
    by_cases hc : c = '='
    · have hoctet : String.utf8EncodeChar c = [pad] := by
        rw [hc]
        decide
      rw [List.rdropWhile_concat_pos _ _ _ (by simp [hc]), ih, hoctet, dropPadding_concat_pad]
    · -- no other character has an octet that pads
      have hlast : (cs.flatMap String.utf8EncodeChar ++ String.utf8EncodeChar c).getLast? ≠ some pad := by
        rw [List.getLast?_append_of_ne_nil _ String.utf8EncodeChar_ne_nil]
        intro hpad
        have hcode := Bytes.toNat_of_mem_utf8EncodeChar (List.mem_of_getLast? hpad) (by decide)
        exact hc (Char.toNat_inj.mp hcode)
      rw [List.rdropWhile_concat_neg _ _ _ (by simp [hc]), dropPadding_of_getLast?_ne hlast,
        List.flatMap_append, List.flatMap_singleton]

/-- What is left of a text in front of its padding. -/
theorem exists_unpadded (s : String) :
    ∃ n, s.toList = (unpadded s).toList ++ List.replicate n '=' := by
  have hpad : s.toList.rtakeWhile (· == '=')
      = List.replicate (s.toList.rtakeWhile (· == '=')).length '=' := by
    rw [List.eq_replicate_iff]
    exact ⟨rfl, fun c hc => eq_of_beq (List.mem_rtakeWhile_imp (p := (· == '=')) hc)⟩
  refine ⟨(s.toList.rtakeWhile (· == '=')).length, ?_⟩
  rw [← hpad, unpadded, String.toList_ofList, List.rdropWhile_append_rtakeWhile]

theorem unpadded_ofList {cs : List Char} (h : '=' ∉ cs) (n : Nat) :
    unpadded (String.ofList (cs ++ List.replicate n '=')) = String.ofList cs := by
  have hkeep : cs.rdropWhile (· == '=') = cs := by
    rw [List.rdropWhile_eq_self_iff]
    intro hne hlast
    exact h (eq_of_beq hlast ▸ List.getLast_mem hne)
  rw [unpadded, String.toList_ofList]
  induction n with
  | zero => rw [List.replicate_zero, List.append_nil, hkeep]
  | succ n ih =>
    rw [List.replicate_succ', ← List.append_assoc, List.rdropWhile_concat_pos _ _ _ rfl, ih]

theorem ofUrl_eq_ok_iff {s : String} {b : Bytes} : ofUrl s = .ok b ↔ unpadded s = toUrl b := by
  rw [ofUrl, decode_eq_ok_iff, ← ofText_unpadded, ← ofText_toUrl, Bytes.ofText_inj]

theorem ofStandard_eq_ok_iff {s : String} {b : Bytes} : ofStandard s = .ok b ↔ s = toStandard b := by
  rw [ofStandard, decode_eq_ok_iff, ← ofText_toStandard, Bytes.ofText_inj]

/-! ### Characters -/

/-- The characters of an alphabet. Each stands for its place. -/
def Alphabet.chars : Alphabet → List Char
  | standard => "ABCDEFGHIJKLMNOPQRSTUVWXYZabcdefghijklmnopqrstuvwxyz0123456789+/".toList
  | urlSafe => "ABCDEFGHIJKLMNOPQRSTUVWXYZabcdefghijklmnopqrstuvwxyz0123456789-_".toList

/-- The character for a digit. -/
def Alphabet.char (a : Alphabet) (n : Nat) : Char := Char.ofNat (a.symbol n).toNat

theorem chars_eq (a : Alphabet) : a.chars = (List.range 64).map a.char := by
  cases a <;> decide +kernel

theorem toNat_char (a : Alphabet) (n : Nat) : (a.char n).toNat = (a.symbol n).toNat := by
  have hascii : (a.symbol n).toNat < 128 := (symbol_spec a n).2.1
  exact Bytes.toNat_charOfNat (Nat.lt_trans hascii (by decide))

theorem char_inj {m n : Nat} (hm : m < 64) (hn : n < 64) (h : a.char m = a.char n) : m = n := by
  have hsymbol : a.symbol m = a.symbol n := by
    rw [← UInt8.toNat_inj, ← toNat_char, ← toNat_char, h]
  have hvalue := (symbol_spec a m).1
  rw [hsymbol, (symbol_spec a n).1, Nat.mod_eq_of_lt hm, Nat.mod_eq_of_lt hn] at hvalue
  exact (Option.some.inj hvalue).symm

theorem equals_not_mem_chars (a : Alphabet) : '=' ∉ a.chars := by
  rw [chars_eq]
  intro hmem
  obtain ⟨n, -, hn⟩ := List.mem_map.mp hmem
  apply (symbol_spec a n).2.2
  rw [← UInt8.toNat_inj, ← toNat_char, hn]
  rfl

theorem length_chars (a : Alphabet) : a.chars.length = 64 := by
  rw [chars_eq, List.length_map, List.length_range]

theorem nodup_chars (a : Alphabet) : a.chars.Nodup := by
  rw [chars_eq]
  refine List.Nodup.map_on ?_ List.nodup_range
  intro m hm n hn h
  exact char_inj (List.mem_range.mp hm) (List.mem_range.mp hn) h

theorem getElem_chars {n : Nat} (h : n < a.chars.length) : a.chars[n] = a.char n := by
  simp [chars_eq]

theorem char_mem_chars {n : Nat} (h : n < 64) : a.char n ∈ a.chars := by
  have hlength : n < a.chars.length := length_chars a ▸ h
  exact getElem_chars hlength ▸ List.getElem_mem hlength

/-- A character stands for its place and no other. -/
theorem idxOf_char {n : Nat} (h : n < 64) : a.chars.idxOf (a.char n) = n := by
  have hlength : n < a.chars.length := length_chars a ▸ h
  rw [← getElem_chars hlength]
  exact (nodup_chars a).idxOf_getElem n hlength

theorem char_idxOf {c : Char} (h : c ∈ a.chars) :
    a.chars.idxOf c < 64 ∧ a.char (a.chars.idxOf c) = c := by
  have hlength : a.chars.idxOf c < a.chars.length := List.idxOf_lt_length_iff.mpr h
  refine ⟨length_chars a ▸ hlength, ?_⟩
  rw [← getElem_chars hlength]
  exact List.getElem_idxOf hlength

/-- Characters that octets are written with: there are none of them outside the alphabet, they do not
end one character into a group, and the last one has no bits set beyond the last octet. -/
structure Canonical (a : Alphabet) (cs : List Char) : Prop where
  alphabet : ∀ c ∈ cs, c ∈ a.chars
  length : cs.length % 4 ≠ 1
  spare : ∀ c ∈ cs.getLast?, a.chars.idxOf c % Nat.pow 4 (shortfall cs.length) = 0

theorem canonical_iff {cs : List Char} : Canonical a cs ↔ ∃ ns, Whole ns ∧ ns.map a.char = cs := by
  constructor
  · intro h
    -- the digits are the places of the characters in the alphabet
    refine ⟨cs.map fun c => a.chars.idxOf c, ⟨?_, ?_, ?_⟩, ?_⟩
    · intro n hn
      obtain ⟨c, hc, rfl⟩ := List.mem_map.mp hn
      exact (char_idxOf (h.alphabet c hc)).1
    · rw [List.length_map]
      exact h.length
    · intro n hn
      rw [List.getLast?_map] at hn
      obtain ⟨c, hc, rfl⟩ := Option.map_eq_some_iff.mp hn
      rw [List.length_map]
      exact h.spare c hc
    · have hsame : ∀ c ∈ cs, (a.char ∘ fun c => a.chars.idxOf c) c = id c :=
        fun c hc => (char_idxOf (h.alphabet c hc)).2
      rw [List.map_map, List.map_congr_left hsame, List.map_id]
  · rintro ⟨ns, h, rfl⟩
    refine ⟨?_, ?_, ?_⟩
    · intro c hc
      obtain ⟨n, hn, rfl⟩ := List.mem_map.mp hc
      exact char_mem_chars (h.lt n hn)
    · rw [List.length_map]
      exact h.length
    · intro c hc
      rw [List.getLast?_map] at hc
      obtain ⟨n, hn, rfl⟩ := Option.map_eq_some_iff.mp hc
      rw [List.length_map, idxOf_char (h.lt n (List.mem_of_getLast? hn))]
      exact h.spare n hn

/-! ### Which texts can be read -/

theorem toUrl_eq (b : Bytes) : toUrl b = String.ofList ((digitsOf b).map Alphabet.urlSafe.char) := by
  rw [toUrl, Bytes.asciiText, encode_eq, Alphabet.fill, List.append_nil, List.map_map]
  rfl

theorem toStandard_eq (b : Bytes) :
    toStandard b = String.ofList ((digitsOf b).map Alphabet.standard.char
      ++ List.replicate (shortfall (digitsOf b).length) '=') := by
  rw [toStandard, Bytes.asciiText, encode_eq, Alphabet.fill, List.map_append, List.map_map,
    List.map_replicate]
  rfl

/-- Canonical characters are those that some octets are written with. -/
theorem canonical_iff_digitsOf {cs : List Char} :
    Canonical a cs ↔ ∃ b, (digitsOf b).map a.char = cs := by
  rw [canonical_iff]
  constructor
  · rintro ⟨ns, hwhole, hns⟩
    obtain ⟨b, rfl⟩ := exists_digitsOf hwhole
    exact ⟨b, hns⟩
  · rintro ⟨b, hb⟩
    exact ⟨digitsOf b, whole_digitsOf b, hb⟩

theorem exists_ofUrl_iff {s : String} :
    (∃ b, ofUrl s = .ok b) ↔ Canonical .urlSafe (unpadded s).toList := by
  rw [canonical_iff_digitsOf]
  refine exists_congr fun b => ?_
  rw [ofUrl_eq_ok_iff, toUrl_eq, ← String.toList_inj, String.toList_ofList, eq_comm]

/-- A text in the standard form: canonical characters, and then the padding that they lack. -/
def IsStandard (s : String) : Prop :=
  ∃ cs, s.toList = cs ++ List.replicate (shortfall cs.length) '=' ∧ Canonical .standard cs

theorem exists_ofStandard_iff {s : String} : (∃ b, ofStandard s = .ok b) ↔ IsStandard s := by
  constructor
  · rintro ⟨b, hb⟩
    rw [ofStandard_eq_ok_iff, toStandard_eq] at hb
    refine ⟨(digitsOf b).map Alphabet.standard.char, ?_, canonical_iff_digitsOf.mpr ⟨b, rfl⟩⟩
    rw [hb, String.toList_ofList, List.length_map]
  · rintro ⟨cs, hs, hcanonical⟩
    obtain ⟨b, rfl⟩ := canonical_iff_digitsOf.mp hcanonical
    refine ⟨b, ofStandard_eq_ok_iff.mpr ?_⟩
    rw [toStandard_eq, ← String.toList_inj, String.toList_ofList, hs, List.length_map]

/-- The character of the URL-safe alphabet in the place of one of the standard alphabet. -/
def urlSafeChar (c : Char) : Char := if c = '+' then '-' else if c = '/' then '_' else c

theorem urlSafeChar_char (n : Nat) : urlSafeChar (Alphabet.standard.char n) = Alphabet.urlSafe.char n := by
  have hdigit : ∀ n : Fin 64,
      urlSafeChar (Alphabet.standard.char n) = Alphabet.urlSafe.char n := by decide
  have hmod (a : Alphabet) : a.char (n % 64) = a.char n := by
    rw [Alphabet.char, Alphabet.char, symbol_mod]
  rw [← hmod, ← hmod]
  exact hdigit ⟨n % 64, Nat.mod_lt n (by decide)⟩

theorem toUrl_eq_map_toStandard (b : Bytes) :
    toUrl b = String.ofList ((unpadded (toStandard b)).toList.map urlSafeChar) := by
  have hequals : '=' ∉ (digitsOf b).map Alphabet.standard.char := by
    intro hmem
    obtain ⟨n, hn, hchar⟩ := List.mem_map.mp hmem
    exact equals_not_mem_chars .standard (hchar ▸ char_mem_chars ((whole_digitsOf b).lt n hn))
  rw [toUrl_eq, toStandard_eq, unpadded_ofList hequals, String.toList_ofList, List.map_map]
  congr 1
  exact List.map_congr_left fun n _ => (urlSafeChar_char n).symm

/-- Only symbols and padding stand in a text that can be read. -/
theorem mem_chars_of_ofUrl {s : String} {b : Bytes} (h : ofUrl s = .ok b) :
    ∀ c ∈ s.toList, c ∈ Alphabet.urlSafe.chars ∨ c = '=' := by
  intro c hc
  obtain ⟨n, hn⟩ := exists_unpadded s
  rw [hn] at hc
  rcases List.mem_append.mp hc with hc | hc
  · exact .inl ((exists_ofUrl_iff.mp ⟨b, h⟩).alphabet c hc)
  · exact .inr (List.eq_of_mem_replicate hc)

/-- The readers accept what is written and nothing else: the one of the URL-safe form up to equals signs
at the end, the one of the standard form to the letter. So either form is read back, and octets that are
written alike are the same. The texts that can be read are those whose characters are canonical, without
padding or with exactly the padding that they lack; no others have a reading. The URL-safe form is the
standard one without its padding and with two characters changed. -/
theorem readers_exact :
    (∀ s b, ofUrl s = .ok b ↔ unpadded s = toUrl b)
    ∧ (∀ s b, ofStandard s = .ok b ↔ s = toStandard b)
    ∧ (∀ b, ofUrl (toUrl b) = .ok b ∧ ofStandard (toStandard b) = .ok b)
    ∧ (∀ b c, (toUrl b = toUrl c ↔ b = c) ∧ (toStandard b = toStandard c ↔ b = c))
    ∧ (∀ s, (∃ b, ofUrl s = .ok b) ↔ Canonical .urlSafe (unpadded s).toList)
    ∧ (∀ s, (∃ b, ofStandard s = .ok b) ↔ IsStandard s)
    ∧ ∀ b, toUrl b = String.ofList ((unpadded (toStandard b)).toList.map urlSafeChar) := by
  refine ⟨?_, ?_, ?_, ?_, ?_, ?_, toUrl_eq_map_toStandard⟩
  · intro s b
    exact ofUrl_eq_ok_iff
  · intro s b
    exact ofStandard_eq_ok_iff
  · intro b
    exact ⟨ofUrl_toUrl b, ofStandard_toStandard b⟩
  · intro b c
    exact ⟨toUrl_inj, toStandard_inj⟩
  · intro s
    exact exists_ofUrl_iff
  · intro s
    exact exists_ofStandard_iff

/-- The last digit of a text with two characters in its last group has four bits to spare. -/
example : ofUrl "YQ=" = .ok [97] ∧ ofUrl "YR" = .error (.invalidLastSymbol 1 82) := by decide +kernel

end Base64

end Acme
