import Acme.IpAddress
import Mathlib.Data.List.Induction

/-!
# The texts of addresses

`IpAddress.Writes` says which text writes which address (RFC 4291, section 2.2): an IPv4 address is
written in one way only, an IPv6 address as groups in several. `ofText?` reads exactly these texts
(`ofText?_eq_some_iff`), although it goes through a text once and takes as much as it can at every place.
The octets of an address are four or sixteen (`Writes.length_octets`).
-/

namespace Acme.IpAddress

/-! ### The grammar -/

/-- An octet is written in decimal digits, as few as possible. -/
def octetText (x : UInt8) : List Char := Nat.toDigits 10 x.toNat

/-- An IPv4 address is written as its octets with dots between them. -/
def v4Text (a : Vector UInt8 4) : List Char :=
  octetText (a.get 0) ++ '.' :: (octetText (a.get 1) ++ '.' :: (octetText (a.get 2) ++ '.' ::
    octetText (a.get 3)))

theorem v4Text_mk (x₀ x₁ x₂ x₃ : UInt8) :
    v4Text #v[x₀, x₁, x₂, x₃]
      = octetText x₀ ++ '.' :: (octetText x₁ ++ '.' :: (octetText x₂ ++ '.' :: octetText x₃)) :=
  rfl

/-- The number that hexadecimal digits write. -/
def hexNumber (ds : List Char) : Nat := ds.foldl (fun n d => n * 16 + hexValue d) 0

/-- Digits that write a group. -/
structure IsGroup (ds : List Char) : Prop where
  digits : ∀ c ∈ ds, isHexDigit c
  ne_nil : ds ≠ []
  short : ds.length ≤ 4

/-- Groups with colons between them, at least one. An IPv4 address may stand for the last two, which
the flag tells. -/
inductive IsGroups : Bool → List Char → List Nat → Prop
  | last {ds : List Char} (h : IsGroup ds) : IsGroups false ds [hexNumber ds]
  | v4 (a : Vector UInt8 4) : IsGroups true (v4Text a) (embedded a)
  | cons {withV4 : Bool} {ds cs : List Char} {gs : List Nat} (h : IsGroup ds)
    (rest : IsGroups withV4 cs gs) : IsGroups withV4 (ds ++ ':' :: cs) (hexNumber ds :: gs)

/-- Groups with colons between them, or nothing. -/
inductive IsRow : Bool → List Char → List Nat → Prop
  | none : IsRow false [] []
  | some {withV4 : Bool} {cs : List Char} {gs : List Nat} (h : IsGroups withV4 cs gs) :
    IsRow withV4 cs gs

/-- A text that writes the eight groups of an IPv6 address. -/
inductive IsV6 : List Char → List Nat → Prop
  | full {withV4 : Bool} {cs : List Char} {gs : List Nat} (h : IsGroups withV4 cs gs)
    (hlength : gs.length = 8) : IsV6 cs gs
  /-- Two colons stand for one or more groups that are zero. -/
  | shortened {withV4 : Bool} {front back : List Char} {gs hs : List Nat} (hfront : IsRow false front gs)
    (hback : IsRow withV4 back hs) (hlength : gs.length + hs.length ≤ 7) :
    IsV6 (front ++ ':' :: ':' :: back)
      (gs ++ List.replicate (8 - gs.length - hs.length) 0 ++ hs)

/-- A text writes an address. -/
inductive Writes : List Char → IpAddress → Prop
  | v4 (a : Vector UInt8 4) : Writes (v4Text a) (.v4 a)
  | v6 {cs : List Char} {gs : List Nat} (h : IsV6 cs gs) : Writes cs (.v6 gs)

/-! ### Numbers -/

/-- A number takes all digits that there are. -/
theorem number?_eq_some_iff {isDigit : Char → Bool} {value : Char → Nat} {base width n : Nat}
    {cs rest : List Char} :
    number? isDigit value base width cs = some (n, rest)
      ↔ ∃ ds, cs = ds ++ rest ∧ (∀ c ∈ ds, isDigit c) ∧ ds ≠ [] ∧ ds.length ≤ width
        ∧ ds.foldl (fun n d => n * base + value d) 0 = n ∧ ∀ c ∈ rest.head?, isDigit c = false := by
  unfold number?
  dsimp only
  constructor
  · intro h
    split at h
    · cases h
    · rename_i hfits
      rw [not_or, List.isEmpty_iff, Nat.not_lt] at hfits
      cases h
      have hsplit := (List.takeWhile_append_dropWhile (p := isDigit) (l := cs)).symm
      -- as many characters are dropped as there were digits
      have hdrop : cs.drop (cs.takeWhile isDigit).length = cs.dropWhile isDigit := by
        calc cs.drop (cs.takeWhile isDigit).length
            = (cs.takeWhile isDigit ++ cs.dropWhile isDigit).drop (cs.takeWhile isDigit).length := by
              rw [← hsplit]
          _ = cs.dropWhile isDigit := List.drop_left
      have hdigits : ∀ c ∈ cs.takeWhile isDigit, isDigit c := List.all_eq_true.mp List.all_takeWhile
      refine ⟨cs.takeWhile isDigit, ?_, hdigits, hfits.1, hfits.2, rfl, ?_⟩
      · rw [hdrop]
        exact hsplit
      · rw [hdrop]
        intro c hc
        have hstop := List.head?_dropWhile_not isDigit cs
        rw [Option.mem_def.mp hc] at hstop
        simpa using hstop
  · rintro ⟨ds, rfl, hdigits, hne, hwidth, rfl, hstop⟩
    -- what follows does not begin with a digit, so no digit more is taken
    have hnone : rest.takeWhile isDigit = [] := by
      cases rest with
      | nil => rfl
      | cons c rest => simp [hstop c rfl]
    have htaken : (ds ++ rest).takeWhile isDigit = ds := by
      rw [List.takeWhile_append_of_pos hdigits, hnone, List.append_nil]
    rw [htaken, List.drop_left, if_neg]
    simp only [List.isEmpty_iff, not_or]
    exact ⟨hne, Nat.not_lt.mpr hwidth⟩

/-- Decimal digits are those of the number that they write, if they do not begin with a zero that is not
alone. -/
theorem toDigits_ofDigitChars {ds : List Char} (hdigits : ∀ c ∈ ds, c.isDigit) (hne : ds ≠ [])
    (hzero : ds.head? = some '0' → ds.length = 1) : Nat.toDigits 10 (Nat.ofDigitChars 10 ds 0) = ds := by
  induction ds using List.reverseRecOn with
  | nil => exact absurd rfl hne
  | append_singleton ds c ih =>
    have hc : 48 ≤ c.toNat ∧ c.toNat ≤ 57 := by
      simpa [Char.isDigit, UInt32.le_iff_toNat_le] using hdigits c (by simp)
    have hchar : Nat.digitChar (c.toNat - 48) = c := by
      obtain ⟨d, hd⟩ : ∃ d, c.toNat = 48 + d := ⟨c.toNat - 48, by omega⟩
      have hsmall : d < 10 := by omega
      rw [← Char.toNat_inj, hd, Nat.add_sub_cancel_left, Nat.toNat_digitChar_of_lt_ten hsmall]
    have hvalue : Nat.ofDigitChars 10 (ds ++ [c]) 0
        = 10 * Nat.ofDigitChars 10 ds 0 + (c.toNat - 48) := by
      rw [Nat.ofDigitChars_append, Nat.ofDigitChars_cons, Nat.ofDigitChars_nil]
      rfl
    rw [hvalue]
    cases ds with
    | nil =>
      rw [Nat.ofDigitChars_nil, Nat.mul_zero, Nat.zero_add, Nat.toDigits_of_lt_base (by omega), hchar]
      rfl
    | cons d ds =>
      have hfirst : (d :: ds).head? ≠ some '0' := fun h => by simpa using hzero h
      have hlead := ih (fun c hc => hdigits c (List.mem_append_left _ hc)) (List.cons_ne_nil _ _)
        fun h => absurd h hfirst
      -- what is in front does not begin with a zero, so its number is not zero
      have hpos : 0 < Nat.ofDigitChars 10 (d :: ds) 0 := by
        refine Nat.pos_of_ne_zero fun hnull => ?_
        rw [hnull, Nat.toDigits_zero] at hlead
        rw [← hlead] at hfirst
        exact hfirst rfl
      rw [← Nat.toDigits_append_toDigits (by omega) hpos (by omega), hlead,
        Nat.toDigits_of_lt_base (by omega), hchar]

theorem foldl_decimal (ds : List Char) :
    ds.foldl (fun n d => n * 10 + (d.toNat - 48)) 0 = Nat.ofDigitChars 10 ds 0 := by
  rw [Nat.ofDigitChars_eq_foldl]
  congr 1
  funext n c
  rw [Nat.mul_comm]
  rfl

/-- The digits of an octet do not begin with a zero that is not alone. -/
theorem octetText_zero (x : UInt8) : (octetText x).head? = some '0' → (octetText x).length = 1 := by
  have hall : ∀ n < 256, (Nat.toDigits 10 n).head? = some '0' → (Nat.toDigits 10 n).length = 1 := by
    decide +kernel
  exact hall x.toNat x.toNat_lt

/-- What the reader asks of the digits that it has taken. -/
theorem not_zero_first_iff {ds rest : List Char} (hne : ds ≠ []) :
    ¬ ((ds ++ rest).head? = some '0' ∧ rest.length + 1 < (ds ++ rest).length)
      ↔ (ds.head? = some '0' → ds.length = 1) := by
  have hhead : (ds ++ rest).head? = ds.head? := by
    obtain ⟨d, ds, rfl⟩ := List.exists_cons_of_ne_nil hne
    rfl
  have hpos : 0 < ds.length := List.length_pos_iff.mpr hne
  rw [hhead, not_and, List.length_append]
  refine forall_congr' fun _ => ?_
  omega

theorem octet?_eq_some_iff {cs rest : List Char} {x : UInt8} :
    octet? cs = some (x, rest) ↔ cs = octetText x ++ rest ∧ ∀ c ∈ rest.head?, c.isDigit = false := by
  constructor
  · intro h
    obtain ⟨⟨n, tail⟩, hnumber, h⟩ := Option.bind_eq_some_iff.mp h
    obtain ⟨ds, rfl, hdigits, hne, -, hn, hstop⟩ := number?_eq_some_iff.mp hnumber
    dsimp only at h
    split at h
    · rename_i hfits
      cases h
      have hx : n.toUInt8.toNat = n := by
        rw [Nat.toUInt8, UInt8.toNat_ofNat']
        exact Nat.mod_eq_of_lt hfits.1
      refine ⟨?_, hstop⟩
      -- without a zero in front the digits are those of the number
      rw [octetText, hx, ← hn, foldl_decimal,
        toDigits_ofDigitChars hdigits hne ((not_zero_first_iff hne).mp hfits.2)]
    · cases h
  · rintro ⟨rfl, hstop⟩
    have hne : octetText x ≠ [] := Nat.toDigits_ne_nil
    have hnumber : number? Char.isDigit (·.toNat - 48) 10 3 (octetText x ++ rest)
        = some (x.toNat, rest) := by
      refine number?_eq_some_iff.mpr ⟨octetText x, rfl, fun c hc => ?_, hne, ?_, ?_, hstop⟩
      · exact Nat.isDigit_of_mem_toDigits (by omega) (by omega) hc
      · have hx := x.toNat_lt
        exact (Nat.length_toDigits_le_iff (by omega) (by omega)).mpr (by omega)
      · rw [foldl_decimal]
        exact Nat.ofDigitChars_ten_toDigits
    rw [octet?, hnumber]
    refine (if_pos ⟨x.toNat_lt, (not_zero_first_iff hne).mpr (octetText_zero x)⟩).trans ?_
    simp

/-! ### IPv4 addresses -/

theorem expect?_eq_some_iff {c : Char} {cs rest : List Char} :
    expect? c cs = some rest ↔ cs = c :: rest := by
  cases cs with
  | nil => simp [expect?]
  | cons d cs => simp [expect?, eq_comm]

theorem exists_octets (a : Vector UInt8 4) : ∃ x₀ x₁ x₂ x₃, a = #v[x₀, x₁, x₂, x₃] := by
  refine ⟨a[0], a[1], a[2], a[3], Vector.ext fun i hi => ?_⟩
  have hplace : i = 0 ∨ i = 1 ∨ i = 2 ∨ i = 3 := by omega
  rcases hplace with rfl | rfl | rfl | rfl <;> rfl

theorem v4?_eq_some_iff {cs rest : List Char} {a : Vector UInt8 4} :
    v4? cs = some (a, rest) ↔ cs = v4Text a ++ rest ∧ ∀ c ∈ rest.head?, c.isDigit = false := by
  have hdot (cs : List Char) : ∀ c ∈ ('.' :: cs).head?, c.isDigit = false := by simp
  constructor
  · intro h
    obtain ⟨⟨x₀, cs₀⟩, h₀, h⟩ := Option.bind_eq_some_iff.mp h
    obtain ⟨ds₁, hd₁, h⟩ := Option.bind_eq_some_iff.mp h
    obtain ⟨⟨x₁, cs₁⟩, h₁, h⟩ := Option.bind_eq_some_iff.mp h
    obtain ⟨ds₂, hd₂, h⟩ := Option.bind_eq_some_iff.mp h
    obtain ⟨⟨x₂, cs₂⟩, h₂, h⟩ := Option.bind_eq_some_iff.mp h
    obtain ⟨ds₃, hd₃, h⟩ := Option.bind_eq_some_iff.mp h
    obtain ⟨⟨x₃, cs₃⟩, h₃, h⟩ := Option.bind_eq_some_iff.mp h
    cases h
    rw [octet?_eq_some_iff] at h₀ h₁ h₂ h₃
    rw [expect?_eq_some_iff] at hd₁ hd₂ hd₃
    obtain ⟨rfl, -⟩ := h₀
    obtain ⟨rfl, -⟩ := h₁
    obtain ⟨rfl, -⟩ := h₂
    obtain ⟨rfl, hstop⟩ := h₃
    subst hd₁ hd₂ hd₃
    exact ⟨by simp [v4Text_mk], hstop⟩
  · rintro ⟨rfl, hstop⟩
    obtain ⟨x₀, x₁, x₂, x₃, rfl⟩ := exists_octets a
    -- each number ends at the point that follows it
    have hread (x : UInt8) {cs : List Char} (hcs : ∀ c ∈ cs.head?, c.isDigit = false) :
        octet? (octetText x ++ cs) = some (x, cs) := octet?_eq_some_iff.mpr ⟨rfl, hcs⟩
    have htext : v4Text #v[x₀, x₁, x₂, x₃] ++ rest = octetText x₀ ++ '.' :: (octetText x₁
        ++ '.' :: (octetText x₂ ++ '.' :: (octetText x₃ ++ rest))) := by
      simp [v4Text_mk]
    simp only [v4?, htext, hread _ (hdot _), hread _ hstop, expect?, Option.bind_eq_bind,
      Option.bind_some, if_true]
    rfl

/-! ### Groups -/

/-- What stands in front of groups: the first of all groups has nothing in front of it. -/
def lead (isFirst : Bool) : List Char := if isFirst then [] else [':']

theorem start_eq_some_iff {isFirst : Bool} {cs start : List Char} :
    (if isFirst then some cs else expect? ':' cs) = some start ↔ cs = lead isFirst ++ start := by
  cases isFirst with
  | false => exact expect?_eq_some_iff
  | true => simp [lead]

theorem group?_eq_some_iff {cs rest : List Char} {g : Nat} :
    number? isHexDigit hexValue 16 4 cs = some (g, rest)
      ↔ ∃ ds, IsGroup ds ∧ hexNumber ds = g ∧ cs = ds ++ rest ∧ ∀ c ∈ rest.head?, isHexDigit c = false := by
  rw [number?_eq_some_iff]
  constructor
  · rintro ⟨ds, hcs, hdigits, hne, hshort, hvalue, hstop⟩
    exact ⟨ds, ⟨hdigits, hne, hshort⟩, hvalue, hcs, hstop⟩
  · rintro ⟨ds, hgroup, hvalue, hcs, hstop⟩
    exact ⟨ds, hcs, hgroup.digits, hgroup.ne_nil, hgroup.short, hvalue, hstop⟩

/-- What is read as groups are groups, and there is room for them. -/
theorem groups_spec {isFirst withV4 : Bool} {room : Nat} {cs rest : List Char} {gs : List Nat}
    (h : groups isFirst room cs = (gs, withV4, rest)) :
    gs.length ≤ room ∧ ((gs = [] ∧ withV4 = false ∧ rest = cs)
      ∨ ∃ taken, IsGroups withV4 taken gs ∧ cs = lead isFirst ++ (taken ++ rest)) := by
  induction room generalizing isFirst withV4 cs rest gs with
  | zero =>
    cases h
    exact ⟨Nat.le_refl _, .inl ⟨rfl, rfl, rfl⟩⟩
  | succ room ih =>
    unfold groups at h
    split at h
    · cases h
      exact ⟨Nat.zero_le _, .inl ⟨rfl, rfl, rfl⟩⟩
    · rename_i start hstart
      obtain rfl := start_eq_some_iff.mp hstart
      split at h
      · rename_i a after hv4
        cases h
        split at hv4
        · rename_i hroom
          -- an IPv4 address takes the room of two groups and ends the row
          obtain ⟨rfl, -⟩ := v4?_eq_some_iff.mp hv4
          exact ⟨Nat.succ_le_succ hroom, .inr ⟨v4Text a, .v4 a, rfl⟩⟩
        · cases hv4
      · split at h
        · cases h
          exact ⟨Nat.zero_le _, .inl ⟨rfl, rfl, rfl⟩⟩
        · rename_i g after hnumber
          obtain ⟨ds, hgroup, rfl, rfl, -⟩ := group?_eq_some_iff.mp hnumber
          rcases hmore : groups false room after with ⟨hs, more, tail⟩
          rw [hmore] at h
          cases h
          obtain ⟨hroom, hrest⟩ := ih hmore
          refine ⟨Nat.succ_le_succ hroom, .inr ?_⟩
          rcases hrest with ⟨rfl, rfl, rfl⟩ | ⟨taken, htaken, rfl⟩
          · exact ⟨ds, .last hgroup, rfl⟩
          · exact ⟨ds ++ ':' :: taken, .cons hgroup htaken, by simp [lead]⟩

/-- What may follow groups: nothing, or the two colons of a shortened address. -/
inductive Ends : List Char → Prop
  | nil : Ends []
  | colons (cs : List Char) : Ends (':' :: ':' :: cs)

theorem isHexDigit_of_mem_octetText {x : UInt8} {c : Char} (h : c ∈ octetText x) : isHexDigit c := by
  have hdigit : c.isDigit := Nat.isDigit_of_mem_toDigits (by omega) (by omega) h
  simp [isHexDigit, hdigit]

/-- Groups are not taken for an IPv4 address: there is no dot after the first digits. -/
theorem v4?_hex_append {ds rest : List Char} (hds : ∀ c ∈ ds, isHexDigit c)
    (hrest : ∀ c ∈ rest.head?, c = ':') : v4? (ds ++ rest) = none := by
  refine Option.eq_none_iff_forall_ne_some.mpr fun ⟨a, tail⟩ h => ?_
  have htext := congrArg (List.dropWhile isHexDigit) (v4?_eq_some_iff.mp h).1
  rw [List.dropWhile_append_of_pos hds, v4Text, List.append_assoc,
    List.dropWhile_append_of_pos fun c hc => isHexDigit_of_mem_octetText hc] at htext
  cases rest with
  | nil => cases htext
  | cons c rest =>
    obtain rfl := hrest c rfl
    cases htext

theorem groups_ends (isFirst : Bool) {room : Nat} {rest : List Char} (h : Ends rest) :
    groups isFirst room rest = ([], false, rest) := by
  cases room with
  | zero => rfl
  | succ room =>
    have hnone (start : List Char) (hstart : ∀ c ∈ start.head?, c = ':') :
        v4? start = none ∧ number? isHexDigit hexValue 16 4 start = none := by
      refine ⟨v4?_hex_append (List.forall_mem_nil _) hstart, ?_⟩
      cases start with
      | nil => rfl
      | cons c start => simp [number?, isHexDigit, hstart c rfl]
    cases h with
    | nil =>
      obtain ⟨hv4, hnumber⟩ := hnone [] (by simp)
      cases isFirst <;> simp [groups, expect?, hv4, hnumber]
    | colons cs =>
      obtain ⟨hv4, hnumber⟩ := hnone (':' :: cs) (by simp)
      obtain ⟨hv4', hnumber'⟩ := hnone (':' :: ':' :: cs) (by simp)
      cases isFirst <;> simp [groups, expect?, hv4, hnumber, hv4', hnumber']

/-- A group is taken, and then what follows it. -/
theorem groups_group (isFirst : Bool) (room : Nat) {ds rest : List Char} (h : IsGroup ds)
    (hrest : ∀ c ∈ rest.head?, c = ':') {gs : List Nat} {withV4 : Bool} {tail : List Char}
    (hmore : groups false room rest = (gs, withV4, tail)) :
    groups isFirst (room + 1) (lead isFirst ++ (ds ++ rest)) = (hexNumber ds :: gs, withV4, tail) := by
  have hstart := start_eq_some_iff.mpr (Eq.refl (lead isFirst ++ (ds ++ rest)))
  have hv4 := v4?_hex_append h.digits hrest
  have hgroup : number? isHexDigit hexValue 16 4 (ds ++ rest) = some (hexNumber ds, rest) := by
    refine group?_eq_some_iff.mpr ⟨ds, h, rfl, rfl, fun c hc => ?_⟩
    rw [hrest c hc]
    rfl
  rw [groups, hstart]
  simp only [hv4, ite_self, hgroup, hmore]

/-- Groups are read as they are, if there is room for them. -/
theorem groups_append (isFirst : Bool) {withV4 : Bool} {room : Nat} {cs rest : List Char} {gs : List Nat}
    (h : IsGroups withV4 cs gs) (hroom : gs.length ≤ room) (hrest : Ends rest)
    (hlast : withV4 = true → rest = []) :
    groups isFirst room (lead isFirst ++ (cs ++ rest)) = (gs, withV4, rest) := by
  induction h generalizing isFirst room with
  | last hgroup =>
    obtain ⟨room, rfl⟩ := Nat.exists_eq_add_of_le' hroom
    refine groups_group isFirst room hgroup ?_ (groups_ends false hrest)
    cases hrest <;> simp
  | v4 a =>
    obtain ⟨room, rfl⟩ := Nat.exists_eq_add_of_le' hroom
    -- after an IPv4 address nothing follows
    obtain rfl := hlast rfl
    have hv4 : v4? (v4Text a ++ []) = some (a, []) := v4?_eq_some_iff.mpr ⟨rfl, by simp⟩
    show groups isFirst (room + 1 + 1) _ = _
    rw [groups, start_eq_some_iff.mpr rfl]
    simp only [Nat.zero_lt_succ, if_true, hv4]
  | cons hgroup _ ih =>
    obtain ⟨room, rfl⟩ := Nat.exists_eq_add_of_le' (Nat.le_trans (Nat.le_add_left 1 _) hroom)
    have hmore := ih false (Nat.le_of_succ_le_succ hroom) hlast
    rw [List.append_assoc]
    exact groups_group isFirst room hgroup (by simp) hmore

/-! ### IPv6 addresses -/

theorem row_spec {withV4 : Bool} {room : Nat} {cs rest : List Char} {gs : List Nat}
    (h : groups true room cs = (gs, withV4, rest)) :
    gs.length ≤ room ∧ ∃ taken, IsRow withV4 taken gs ∧ cs = taken ++ rest := by
  obtain ⟨hroom, hrow⟩ := groups_spec h
  refine ⟨hroom, ?_⟩
  rcases hrow with ⟨rfl, rfl, rfl⟩ | ⟨taken, htaken, rfl⟩
  · exact ⟨[], .none, rfl⟩
  · exact ⟨taken, .some htaken, rfl⟩

theorem row_append {withV4 : Bool} {room : Nat} {cs rest : List Char} {gs : List Nat}
    (h : IsRow withV4 cs gs) (hroom : gs.length ≤ room) (hrest : Ends rest)
    (hlast : withV4 = true → rest = []) : groups true room (cs ++ rest) = (gs, withV4, rest) := by
  cases h with
  | none => exact groups_ends true hrest
  | some h => exact groups_append true h hroom hrest hlast

/-- The texts that are read as IPv6 addresses. -/
theorem v6?_eq_some_iff {cs : List Char} {gs : List Nat} : v6? cs = some (gs, []) ↔ IsV6 cs gs := by
  constructor
  · intro h
    rcases hfront : groups true 8 cs with ⟨front, withV4, rest⟩
    obtain ⟨hroom, taken, htaken, rfl⟩ := row_spec hfront
    simp only [v6?, hfront] at h
    split at h
    · rename_i hfull
      cases h
      cases htaken with
      | none => cases hfull
      | some htaken =>
        rw [List.append_nil]
        exact .full htaken hfull
    · rename_i hpart
      cases withV4 with
      | true => cases h
      | false =>
        rw [if_neg Bool.false_ne_true] at h
        -- fewer than eight groups: two colons follow, and then the groups at the back
        obtain ⟨rest₁, hcolon₁, h₁⟩ := Option.bind_eq_some_iff.mp h
        obtain ⟨rest₂, hcolon₂, h₂⟩ := Option.bind_eq_some_iff.mp h₁
        obtain rfl := expect?_eq_some_iff.mp hcolon₁
        obtain rfl := expect?_eq_some_iff.mp hcolon₂
        rcases hback : groups true (7 - front.length) rest₂ with ⟨back, withV4, last⟩
        simp only [hback] at h₂
        cases h₂
        obtain ⟨hroom', taken', htaken', rfl⟩ := row_spec hback
        rw [List.append_nil]
        exact .shortened htaken htaken' (by omega)
  · intro h
    cases h with
    | full h hlength =>
      have hread : groups true 8 (cs ++ []) = (gs, _, []) :=
        groups_append true h (by omega) .nil fun _ => rfl
      rw [List.append_nil] at hread
      simp [v6?, hread, hlength]
    | @shortened withV4 front back gs hs hfront hback hlength =>
      have hread : groups true 8 (front ++ ':' :: ':' :: back) = (gs, false, _) :=
        -- the row at the front breaks off before the two colons
        row_append hfront (by omega) (.colons back) nofun
      have hread' : groups true (7 - gs.length) (back ++ []) = (hs, withV4, []) :=
        row_append hback (by omega) .nil fun _ => rfl
      rw [List.append_nil] at hread'
      have hpart : ¬ gs.length = 8 := by omega
      simp [v6?, hread, hread', hpart, expect?]

/-- Nothing that writes an IPv6 address begins with an IPv4 address. -/
theorem v4?_eq_none_of_isV6 {cs : List Char} {gs : List Nat} (h : IsV6 cs gs) : v4? cs = none := by
  have hgroups {withV4 : Bool} {cs rest : List Char} {gs : List Nat} (h : IsGroups withV4 cs gs)
      (hrest : ∀ c ∈ rest.head?, c = ':') (hmore : gs.length = 8 ∨ withV4 = false) :
      v4? (cs ++ rest) = none := by
    cases h with
    | last hgroup => exact v4?_hex_append hgroup.digits hrest
    | v4 a => simp [embedded] at hmore
    | cons hgroup _ =>
      rw [List.append_assoc]
      exact v4?_hex_append hgroup.digits (by simp)
  cases h with
  | full h hlength =>
    rw [← List.append_nil cs]
    exact hgroups h (by simp) (.inl hlength)
  | shortened hfront hback hlength =>
    cases hfront with
    | none => exact v4?_hex_append (List.forall_mem_nil _) (by simp)
    | some h => exact hgroups h (by simp) (.inr rfl)

/-! ### Addresses -/

/-- Exactly the texts that write an address are read, as the address that they write. -/
theorem ofText?_eq_some_iff {s : String} {a : IpAddress} : ofText? s = some a ↔ Writes s.toList a := by
  unfold ofText?
  constructor
  · intro h
    split at h
    · rename_i octets rest hv4
      split at h
      · rename_i hend
        cases h
        obtain ⟨htext, -⟩ := v4?_eq_some_iff.mp hv4
        rw [htext, List.isEmpty_iff.mp hend, List.append_nil]
        exact .v4 octets
      · cases h
    · obtain ⟨⟨gs, rest⟩, hv6, h⟩ := Option.bind_eq_some_iff.mp h
      dsimp only at h
      split at h
      · rename_i hend
        cases h
        rw [List.isEmpty_iff.mp hend] at hv6
        exact .v6 (v6?_eq_some_iff.mp hv6)
      · cases h
  · intro h
    generalize s.toList = cs at h
    cases h with
    | v4 octets =>
      have hread : v4? (v4Text octets ++ []) = some (octets, []) :=
        v4?_eq_some_iff.mpr ⟨rfl, by simp⟩
      rw [List.append_nil] at hread
      rw [hread]
      rfl
    | v6 h =>
      -- the other form is tried first, and no text has both
      rw [v4?_eq_none_of_isV6 h, v6?_eq_some_iff.mpr h]
      rfl

/-! ### The octets of an address -/

/-- An IPv6 address has eight groups. -/
theorem IsV6.length_eq {cs : List Char} {gs : List Nat} (h : IsV6 cs gs) : gs.length = 8 := by
  cases h with
  | full h hlength => exact hlength
  | shortened hfront hback hlength =>
    simp only [List.length_append, List.length_replicate]
    omega

theorem length_octets_v6 (gs : List Nat) : (octets (.v6 gs)).length = 2 * gs.length := by
  induction gs with
  | nil => rfl
  | cons g gs ih =>
    rw [octets] at ih ⊢
    rw [List.flatMap_cons, List.length_append, ih, List.length_cons]
    simp only [List.length_cons, List.length_nil]
    omega

/-- What is written as an address has four or sixteen octets. -/
theorem Writes.length_octets {cs : List Char} {a : IpAddress} (h : Writes cs a) :
    a.octets.length = 4 ∨ a.octets.length = 16 := by
  cases h with
  | v4 a => exact .inl a.size_toArray
  | v6 h =>
    rw [length_octets_v6, h.length_eq]
    exact .inr rfl

end Acme.IpAddress
