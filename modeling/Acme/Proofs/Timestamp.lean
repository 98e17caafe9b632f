import Acme.Timestamp

/-!
# Points in time survive being written

What `Timestamp.ofText?` reads is a point in time that the calendar and the clock have
(`Timestamp.Valid`), and such a point in time is read from its own text (`Timestamp.ofText?_text`). The
text is made of numbers of known width, so each part is read up to where the next one begins.
-/

namespace Acme

namespace Date

variable {d : Date}

theorem isValid_of_make? {year : Int} {month day : Nat} (h : make? year month day = some d) :
    d.IsValid := by
  rw [make?] at h
  split at h
  · cases h
    assumption
  · cases h

theorem make?_of_isValid (h : d.IsValid) : make? d.year d.month d.day = some d := if_pos h

theorem le_daysInMonth (year : Int) (month : Nat) : 28 ≤ daysInMonth year month := by
  unfold daysInMonth
  repeat' split
  all_goals omega

theorem daysInMonth_le (year : Int) (month : Nat) : daysInMonth year month ≤ 31 := by
  unfold daysInMonth
  repeat' split
  all_goals omega

theorem isValid_next (h : d.IsValid) : d.next.IsValid := by
  obtain ⟨hmonth, hmonth', hday, hday'⟩ := h
  have hroom (year : Int) (month : Nat) : 1 ≤ daysInMonth year month :=
    Nat.le_trans (by omega) (le_daysInMonth year month)
  unfold next
  split
  · exact ⟨hmonth, hmonth', Nat.le_add_left 1 _, ‹_›⟩
  · split
    · exact ⟨Nat.le_add_left 1 _, ‹_›, Nat.le_refl 1, hroom _ _⟩
    · exact ⟨Nat.le_refl 1, Nat.le_add_left 1 11, Nat.le_refl 1, hroom _ _⟩

theorem isValid_previous (h : d.IsValid) : d.previous.IsValid := by
  obtain ⟨hmonth, hmonth', hday, hday'⟩ := h
  have hroom (year : Int) (month : Nat) : 1 ≤ daysInMonth year month :=
    Nat.le_trans (by omega) (le_daysInMonth year month)
  unfold previous
  split
  · exact ⟨hmonth, hmonth', Nat.le_sub_one_of_lt ‹_›, Nat.le_trans (Nat.sub_le _ 1) hday'⟩
  · split
    · exact ⟨Nat.le_sub_one_of_lt ‹_›, Nat.le_trans (Nat.sub_le _ 1) hmonth', hroom _ _,
        Nat.le_refl _⟩
    · exact ⟨Nat.le_add_left 1 11, Nat.le_refl 12, Nat.le_add_left 1 30, Nat.le_refl 31⟩

end Date

namespace Timestamp

/-! ### Numbers -/

theorem number_eq_ofDigitChars (ds : List Char) : number ds = Nat.ofDigitChars 10 ds 0 := by
  rw [number, Nat.ofDigitChars_eq_foldl]
  congr 1
  funext n c
  rw [Nat.mul_comm]
  rfl

theorem number_lt {ds : List Char} (hdigits : ∀ c ∈ ds, c.isDigit) :
    number ds < Nat.pow 10 ds.length := by
  -- what has been read before the digits is shifted past them
  have hshift (n : Nat) :
      ds.foldl (fun n d => n * 10 + (d.toNat - 48)) n < (n + 1) * Nat.pow 10 ds.length := by
    induction ds generalizing n with
    | nil => simp
    | cons c ds ih =>
      have hc : c.toNat ≤ 57 := by
        have := hdigits c (by simp)
        simp only [Char.isDigit, Bool.and_eq_true, decide_eq_true_eq, UInt32.le_iff_toNat_le] at this
        exact this.2
      rw [List.foldl_cons, List.length_cons]
      calc ds.foldl (fun n d => n * 10 + (d.toNat - 48)) (n * 10 + (c.toNat - 48))
          < (n * 10 + (c.toNat - 48) + 1) * Nat.pow 10 ds.length :=
            ih (fun c hc => hdigits c (by simp [hc])) _
        _ ≤ ((n + 1) * 10) * Nat.pow 10 ds.length := Nat.mul_le_mul_right _ (by omega)
        _ = (n + 1) * (10 * Nat.pow 10 ds.length) := Nat.mul_assoc _ _ _
        _ = (n + 1) * Nat.pow 10 (ds.length + 1) := congrArg _ (Nat.mul_comm _ _)
  simpa [number] using hshift 0

section

variable {width n : Nat}

theorem isDigit_of_mem_padded {c : Char} (h : c ∈ padded width n) : c.isDigit := by
  rcases List.mem_append.mp h with h | h
  · rw [(List.mem_replicate.mp h).2]
    decide
  · exact Nat.isDigit_of_mem_toDigits (by omega) (by omega) h

theorem padded_ne_nil : padded width n ≠ [] := by
  simp [padded, Nat.toDigits_ne_nil]

@[simp] theorem number_padded : number (padded width n) = n := by
  rw [number_eq_ofDigitChars, padded, Nat.ofDigitChars_append, Nat.ofDigitChars_replicate_zero,
    Nat.mul_zero, Nat.ofDigitChars_ten_toDigits]

theorem length_padded (hwidth : 0 < width) (h : n < Nat.pow 10 width) :
    (padded width n).length = width := by
  have hle : (Nat.toDigits 10 n).length ≤ width :=
    (Nat.length_toDigits_le_iff (by omega) hwidth).mpr h
  rw [padded, List.length_append, List.length_replicate]
  omega

end

/-- A digit is no white space. -/
theorem dropBlank_of_isDigit {c : Char} (h : c.isDigit) (rest : List Char) :
    Text.dropBlank (c :: rest) = c :: rest := by
  have hc : 48 ≤ c.toNat ∧ c.toNat ≤ 57 := by
    simpa [Char.isDigit, UInt32.le_iff_toNat_le] using h
  have hblank : Text.blank.mem c = false := by
    simp only [Text.blank, Text.CharSet.mem, Text.CharSet.inside]
    grind
  rw [Text.dropBlank, List.dropWhile_cons, hblank]
  rfl

/-- The digits at the start of a text. -/
theorem takeWhile_isDigit_append {ds rest : List Char} (hdigits : ∀ c ∈ ds, c.isDigit)
    (hrest : ∀ c ∈ rest.head?, c.isDigit = false) :
    (ds ++ rest).takeWhile Char.isDigit = ds := by
  have hnone : rest.takeWhile Char.isDigit = [] := by
    cases rest with
    | nil => rfl
    | cons c rest => simp [hrest c rfl]
  rw [List.takeWhile_append_of_pos hdigits, hnone, List.append_nil]

/-- Digits are read as their number, if they fill the width or no further digit follows. -/
theorem number?_append {width : Nat} {ds rest : List Char} (hdigits : ∀ c ∈ ds, c.isDigit)
    (hne : ds ≠ []) (hwidth : ds.length ≤ width)
    (hrest : ds.length = width ∨ ∀ c ∈ rest.head?, c.isDigit = false) :
    number? width (ds ++ rest) = some (number ds, rest) := by
  have hblank : Text.dropBlank (ds ++ rest) = ds ++ rest := by
    obtain ⟨c, ds, rfl⟩ := List.exists_cons_of_ne_nil hne
    exact dropBlank_of_isDigit (hdigits c (by simp)) _
  have htaken : ((ds ++ rest).takeWhile Char.isDigit).take width = ds := by
    rcases hrest with hfull | hstop
    · rw [List.takeWhile_append_of_pos hdigits, ← hfull, List.take_left]
    · rw [takeWhile_isDigit_append hdigits hstop, List.take_of_length_le hwidth]
  rw [number?, hblank]
  simp only [htaken, List.isEmpty_iff, hne, if_false, List.drop_left]

/-- A number in a field of its width is read whatever follows it. -/
theorem number?_padded {width n : Nat} (hwidth : 0 < width) (h : n < Nat.pow 10 width)
    (rest : List Char) : number? width (padded width n ++ rest) = some (n, rest) := by
  have hlength := length_padded hwidth h
  rw [number?_append (fun c => isDigit_of_mem_padded) padded_ne_nil
    (Nat.le_of_eq hlength) (.inl hlength),
    number_padded]

/-! ### Parts of the text -/

theorem year?_yearText (year : Int) (rest : List Char) :
    year? (yearText year ++ '-' :: rest) = some (year, '-' :: rest) := by
  -- a number of any width ends before the hyphen
  have hnumber (width n : Nat) (hwidth : (padded 4 n).length ≤ width) :
      number? width (padded 4 n ++ '-' :: rest) = some (n, '-' :: rest) := by
    rw [number?_append (fun c => isDigit_of_mem_padded) padded_ne_nil hwidth
      (.inr (by simp)), number_padded]
  have hhead (n : Nat) : ∃ c cs, padded 4 n ++ '-' :: rest = c :: cs ∧ c.isDigit := by
    obtain ⟨c, cs, hcons⟩ := List.exists_cons_of_ne_nil (padded_ne_nil : padded 4 n ≠ [])
    refine ⟨c, cs ++ '-' :: rest, by rw [hcons]; rfl, ?_⟩
    exact isDigit_of_mem_padded (hcons ▸ List.mem_cons_self)
  unfold yearText
  split
  · rename_i hrange
    obtain ⟨c, cs, hcons, hdigit⟩ := hhead year.toNat
    have hfour : year.toNat < 10000 := by omega
    have hread := hnumber 4 year.toNat (Nat.le_of_eq (length_padded (by omega) hfour))
    rw [hcons] at hread ⊢
    rw [year?, dropBlank_of_isDigit hdigit]
    split
    · cases ‹c :: cs = _›
      cases hdigit
    · cases ‹c :: cs = _›
      cases hdigit
    · rw [hread]
      show some ((year.toNat : Int), '-' :: rest) = _
      rw [Int.toNat_of_nonneg hrange.1]
  · rename_i hrange
    obtain ⟨c, cs, hcons, hdigit⟩ := hhead year.natAbs
    have hread := hnumber (padded 4 year.natAbs ++ '-' :: rest).length year.natAbs (by simp)
    have hstart :
        ((padded 4 year.natAbs ++ '-' :: rest).head?.map Char.isDigit).getD false = true := by
      rw [hcons]
      exact hdigit
    have hsign (sign : Char) (hsign : Text.blank.mem sign = false) :
        Text.dropBlank (sign :: padded 4 year.natAbs ++ '-' :: rest)
          = sign :: (padded 4 year.natAbs ++ '-' :: rest) := by
      rw [List.cons_append, Text.dropBlank, List.dropWhile_cons, hsign]
      rfl
    split
    · rw [year?, hsign '-' (by decide)]
      simp only [hread]
      rw [if_pos hstart]
      simp only [Option.map_some, Option.some.injEq, Prod.mk.injEq, and_true]
      omega
    · rw [year?, hsign '+' (by decide)]
      simp only [hread]
      rw [if_pos hstart]
      simp only [Option.map_some, Option.some.injEq, Prod.mk.injEq, and_true]
      omega

/-- A fraction is read up to its end. -/
theorem fraction?_fractionText {nano : Nat} (h : nano < 1000000000) (rest : List Char) :
    fraction? (fractionText nano ++ 'Z' :: rest) = some (nano, 'Z' :: rest) := by
  -- the digits of any width are read up to the letter behind them
  have hread (width n : Nat) (hwidth : 0 < width) (hnine : width ≤ 9) (hn : n < Nat.pow 10 width) :
      fraction? ('.' :: padded width n ++ 'Z' :: rest)
        = some (n * Nat.pow 10 (9 - width), 'Z' :: rest) := by
    have htaken : (padded width n ++ 'Z' :: rest).takeWhile Char.isDigit = padded width n :=
      takeWhile_isDigit_append (fun c => isDigit_of_mem_padded) (by simp)
    have hlength := length_padded hwidth hn
    have hkept : (padded width n).take 9 = padded width n :=
      List.take_of_length_le (by omega)
    rw [List.cons_append, fraction?]
    simp only [htaken, List.isEmpty_iff, padded_ne_nil, if_false, hkept, number_padded, hlength]
    rw [List.drop_left' hlength]
  -- the shortest of four widths is written that loses nothing
  unfold fractionText
  split
  · subst nano
    rfl
  · split
    · have hmilli : nano / 1000000 < 1000 := by omega
      rw [hread 3 _ (by omega) (by omega) hmilli]
      simp only [Nat.pow_eq, Option.some.injEq, Prod.mk.injEq, and_true]
      omega
    · split
      · have hmicro : nano / 1000 < 1000000 := by omega
        rw [hread 6 _ (by omega) (by omega) hmicro]
        simp only [Nat.pow_eq, Option.some.injEq, Prod.mk.injEq, and_true]
        omega
      · rw [hread 9 _ (by omega) (by omega) h]
        simp

/-- A fraction is less than a second. -/
theorem fraction?_lt {cs rest : List Char} {nano : Nat} (h : fraction? cs = some (nano, rest)) :
    nano < 1000000000 := by
  unfold fraction? at h
  split at h
  · rename_i digits
    simp only at h
    split at h
    · cases h
    · generalize hkept : (digits.takeWhile Char.isDigit).take 9 = kept at h
      cases h
      have hdigits : ∀ c ∈ kept, c.isDigit := fun c hc =>
        List.all_eq_true.mp List.all_takeWhile c (List.mem_of_mem_take (hkept ▸ hc))
      have hlength : kept.length ≤ 9 := hkept ▸ List.length_take_le 9 _
      -- nine digits at most are kept, and as many zeros follow as there is room for
      calc number kept * Nat.pow 10 (9 - kept.length)
          < Nat.pow 10 kept.length * Nat.pow 10 (9 - kept.length) :=
            Nat.mul_lt_mul_of_pos_right (number_lt hdigits) (Nat.pow_pos (by omega))
        _ = Nat.pow 10 (kept.length + (9 - kept.length)) := (Nat.pow_add 10 _ _).symm
        _ = 1000000000 := by rw [Nat.add_sub_cancel' hlength]
  · cases h
    decide

theorem atZeroOffset_zero {t : Timestamp} (hhour : t.hour < 24) (hminute : t.minute < 60) :
    atZeroOffset t 0 = t := by
  have hminutes :
      ((t.hour * 60 + t.minute : Nat) - 0 : Int) % 1440 = (t.hour * 60 + t.minute : Nat) := by
    omega
  unfold atZeroOffset
  simp only [hminutes, Int.toNat_natCast]
  rw [if_neg (by omega), if_neg (by omega)]
  obtain ⟨date, hour, minute, second, nano⟩ := t
  simp only [mk.injEq, and_true, true_and] at hhour hminute ⊢
  omega

/-! ### Whole points in time -/

/-- A point in time that the calendar and the clock have. Its minute may have a sixtieth second. -/
structure Valid (t : Timestamp) : Prop where
  date : t.date.IsValid
  year : InRange t.date.year
  hour : t.hour < 24
  minute : t.minute < 60
  second : t.second ≤ 60
  nano : t.nano < 1000000000

theorem ofChars?_localText {t : Timestamp} (h : t.Valid) :
    ofChars? (t.localText ++ ['Z']) = some t := by
  obtain ⟨hmonth, hmonth', hday, hday'⟩ := h.date
  have hday'' := Date.daysInMonth_le t.date.year t.date.month
  have hhour := h.hour
  have hminute := h.minute
  have hsecond := h.second
  have hpair (n : Nat) (hn : n < 100) (rest : List Char) :
      number? 2 (padded 2 n ++ rest) = some (n, rest) := number?_padded (by omega) hn rest
  -- each part is read, and the next one begins with what is left
  have hread {α β : Type} {part : Option α} {a : α} {b : β} {next : α → Option β} (ha : part = some a)
      (hb : next a = some b) : part >>= next = some b := by
    rw [ha]
    exact hb
  simp only [localText, List.append_assoc, List.cons_append]
  refine hread (year?_yearText _ _) (hread rfl ?_)
  refine hread (hpair t.date.month (by omega) _) (hread rfl ?_)
  refine hread (hpair t.date.day (by omega) _) (hread rfl ?_)
  refine hread (hpair t.hour (by omega) _) (hread rfl ?_)
  refine hread (hpair t.minute (by omega) _) (hread rfl ?_)
  refine hread (hpair t.second (by omega) _) (hread (fraction?_fractionText h.nano []) ?_)
  refine hread rfl (hread (Date.make?_of_isValid h.date) ?_)
  have hzero := atZeroOffset_zero h.hour h.minute
  dsimp only
  rw [hzero]
  exact if_pos ⟨rfl, h.hour, h.minute, h.second, h.year, h.year⟩

/-- A point in time is read from its own text. -/
theorem ofText?_text {t : Timestamp} (h : t.Valid) : ofText? t.text = some t := by
  rw [ofText?, text, String.toList_ofList, ofChars?_localText h]

/-- Another offset leaves the clock and the calendar valid. -/
theorem valid_atZeroOffset {t : Timestamp} {offset : Int} (hdate : t.date.IsValid)
    (hyear : InRange (atZeroOffset t offset).date.year) (hsecond : t.second ≤ 60)
    (hnano : t.nano < 1000000000) : (atZeroOffset t offset).Valid := by
  refine { date := ?_, year := hyear, hour := ?_, minute := ?_, second := hsecond, nano := hnano }
  · unfold atZeroOffset
    dsimp only
    split
    · exact Date.isValid_previous hdate
    · split
      · exact Date.isValid_next hdate
      · exact hdate
  · show ((_ : Int) % 1440).toNat / 60 < 24
    omega
  · exact Nat.mod_lt _ (by omega)

/-- What is read is a point in time. -/
theorem valid_of_ofText? {s : String} {t : Timestamp} (h : ofText? s = some t) : t.Valid := by
  have hread {α β : Type} {part : Option α} {next : α → Option β} {b : β}
      (h : part >>= next = some b) : ∃ a, part = some a ∧ next a = some b :=
    Option.bind_eq_some_iff.mp h
  rw [ofText?, ofChars?] at h
  obtain ⟨year, -, h⟩ := hread h
  obtain ⟨_, -, h⟩ := hread h
  obtain ⟨month, -, h⟩ := hread h
  obtain ⟨_, -, h⟩ := hread h
  obtain ⟨⟨day, cs⟩, -, h⟩ := hread h
  -- only a space or a `T` leads on to the clock
  dsimp only at h
  split at h
  · split at h
    · obtain ⟨_, -, h⟩ := hread h
      obtain ⟨hour, -, h⟩ := hread h
      obtain ⟨_, -, h⟩ := hread h
      obtain ⟨minute, -, h⟩ := hread h
      obtain ⟨_, -, h⟩ := hread h
      obtain ⟨second, -, h⟩ := hread h
      obtain ⟨nano, hnano, h⟩ := hread h
      obtain ⟨offset, -, h⟩ := hread h
      obtain ⟨date, hdate, h⟩ := hread h
      split at h
      · rename_i hclock
        cases h
        exact valid_atZeroOffset (Date.isValid_of_make? hdate) hclock.2.2.2.2.2 hclock.2.2.2.1
          (fraction?_lt hnano)
      · cases h
    · cases h
  · cases h

end Timestamp

end Acme
