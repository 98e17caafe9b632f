import Acme.Json.Node

/-!
# The grammar of texts

The grammar of JSON texts (RFC 8259) as a relation between a text and its octets: `Node.Writes n b`
says that the octets write the text, with any white space around its parts. It says nothing about how
octets are read.

A number has a whole part, and possibly a sign, a fraction and an exponent (`IsNumber`). The parts that
the reader goes through are compared with these from the last to the first: `Rest part b` says that the
octets may follow a part, and `rest_sign` what may follow a sign.
-/

namespace Acme.Json.Node

/-! ### Strings -/

/-- White space. -/
def IsBlank (b : Bytes) : Prop := ∀ x ∈ b, isSpace x

/-- What may stand between quotation marks. -/
inductive IsString : Bytes → Prop
  | nil : IsString []
  | plain {x : UInt8} {b : Bytes} (hcontrol : ¬ x < 32) (hquote : x ≠ 34) (hbackslash : x ≠ 92)
    (h : IsString b) : IsString (x :: b)
  | escape {x : UInt8} {b : Bytes} (hx : isEscape x) (h : IsString b) : IsString (92 :: x :: b)
  | code {digits b : Bytes} (hlength : digits.length = 4) (hdigits : ∀ x ∈ digits, isHexDigit x)
    (h : IsString b) : IsString (92 :: 117 :: (digits ++ b))

/-! ### Numbers -/

def AllDigits (b : Bytes) : Prop := ∀ x ∈ b, isDigit x

/-- At least one digit. -/
def IsDigits (b : Bytes) : Prop := b ≠ [] ∧ AllDigits b

/-- Zero, or digits that do not begin with it. -/
inductive IsWhole : Bytes → Prop
  | zero : IsWhole [48]
  | digits {x : UInt8} {b : Bytes} (hx : isDigit x) (hzero : x ≠ 48) (h : AllDigits b) :
    IsWhole (x :: b)

inductive IsFraction : Bytes → Prop
  | none : IsFraction []
  | point {b : Bytes} (h : IsDigits b) : IsFraction (46 :: b)

inductive IsExponent : Bytes → Prop
  | none : IsExponent []
  | mark {x : UInt8} {sign b : Bytes} (hx : x = 101 ∨ x = 69)
    (hsign : sign = [] ∨ sign = [43] ∨ sign = [45]) (h : IsDigits b) : IsExponent (x :: (sign ++ b))

inductive IsNumber : Bytes → Prop
  | parts {sign whole fraction exponent : Bytes} (hsign : sign = [] ∨ sign = [45])
    (hwhole : IsWhole whole) (hfraction : IsFraction fraction) (hexponent : IsExponent exponent) :
    IsNumber (sign ++ (whole ++ (fraction ++ exponent)))

/-! ### Texts -/

mutual

/-- The octets write a text. -/
inductive Writes : Node → Bytes → Prop
  | null : Writes .null [110, 117, 108, 108]
  | true : Writes (.bool true) [116, 114, 117, 101]
  | false : Writes (.bool false) [102, 97, 108, 115, 101]
  | number {b : Bytes} (h : IsNumber b) : Writes (.number b) b
  | string {b : Bytes} (h : IsString b) : Writes (.string b) (34 :: (b ++ [34]))
  | noItems {s : Bytes} (h : IsBlank s) : Writes (.array []) (91 :: (s ++ [93]))
  | array {items : List Node} {b : Bytes} (h : WritesItems items b) :
    Writes (.array items) (91 :: (b ++ [93]))
  | noMembers {s : Bytes} (h : IsBlank s) : Writes (.object []) (123 :: (s ++ [125]))
  | object {members : List (Bytes × Node)} {b : Bytes} (h : WritesMembers members b) :
    Writes (.object members) (123 :: (b ++ [125]))
  | spaceBefore {n : Node} {x : UInt8} {b : Bytes} (hx : isSpace x) (h : Writes n b) :
    Writes n (x :: b)
  | spaceAfter {n : Node} {x : UInt8} {b : Bytes} (h : Writes n b) (hx : isSpace x) :
    Writes n (b ++ [x])

/-- The octets write the items of an array, of which there are some. -/
inductive WritesItems : List Node → Bytes → Prop
  | last {n : Node} {b : Bytes} (h : Writes n b) : WritesItems [n] b
  | more {n : Node} {items : List Node} {b c : Bytes} (h : Writes n b) (hrest : WritesItems items c) :
    WritesItems (n :: items) (b ++ 44 :: c)

/-- The octets write the members of an object, of which there are some. -/
inductive WritesMembers : List (Bytes × Node) → Bytes → Prop
  | last {name : Bytes} {n : Node} {a b : Bytes} (hname : Writes (.string name) a) (h : Writes n b) :
    WritesMembers [(name, n)] (a ++ 58 :: b)
  | more {name : Bytes} {n : Node} {members : List (Bytes × Node)} {a b c : Bytes}
    (hname : Writes (.string name) a) (h : Writes n b) (hrest : WritesMembers members c) :
    WritesMembers ((name, n) :: members) (a ++ 58 :: (b ++ 44 :: c))

end

/-! ### Numbers, part by part -/

/-- The octets complete a number after a part of it. -/
def Rest (part : NumberPart) (b : Bytes) : Prop :=
  ∃ last, b.foldlM NumberPart.next? part = some last ∧ last.complete

theorem rest_nil {part : NumberPart} : Rest part [] ↔ part.complete := by
  simp [Rest]

theorem rest_cons {part : NumberPart} {x : UInt8} {b : Bytes} :
    Rest part (x :: b) ↔ ∃ next, part.next? x = some next ∧ Rest next b := by
  simp only [Rest, List.foldlM_cons, Option.bind_eq_bind, Option.bind_eq_some_iff]
  constructor
  · rintro ⟨last, ⟨next, hnext, hrest⟩, hlast⟩
    exact ⟨next, hnext, last, hrest, hlast⟩
  · rintro ⟨next, hnext, last, hrest, hlast⟩
    exact ⟨last, ⟨next, hnext, hrest⟩, hlast⟩

@[simp] theorem allDigits_nil : AllDigits [] := nofun

@[simp] theorem allDigits_cons {x : UInt8} {b : Bytes} :
    AllDigits (x :: b) ↔ isDigit x ∧ AllDigits b := by
  simp [AllDigits]

theorem isDigits_cons {x : UInt8} {b : Bytes} : IsDigits (x :: b) ↔ isDigit x ∧ AllDigits b := by
  simp [IsDigits]

theorem rest_exponent {b : Bytes} : Rest .exponent b ↔ AllDigits b := by
  induction b with
  | nil => simp [rest_nil, NumberPart.complete]
  | cons x b ih =>
    rw [rest_cons, allDigits_cons, ← ih]
    by_cases hx : isDigit x <;> simp [NumberPart.next?, hx]

theorem rest_markSign {b : Bytes} : Rest .markSign b ↔ IsDigits b := by
  cases b with
  | nil => simp [rest_nil, NumberPart.complete, IsDigits]
  | cons x b =>
    rw [rest_cons, isDigits_cons, ← rest_exponent]
    by_cases hx : isDigit x <;> simp [NumberPart.next?, hx]

theorem rest_mark {b : Bytes} :
    Rest .mark b ↔ ∃ sign ds, (sign = [] ∨ sign = [43] ∨ sign = [45]) ∧ IsDigits ds ∧ b = sign ++ ds := by
  constructor
  · intro h
    cases b with
    | nil => exact absurd (rest_nil.mp h) (by decide)
    | cons x b =>
      obtain ⟨next, hnext, hrest⟩ := rest_cons.mp h
      simp only [NumberPart.next?] at hnext
      split at hnext
      · rename_i hx
        cases hnext
        exact ⟨[], x :: b, .inl rfl, isDigits_cons.mpr ⟨hx, rest_exponent.mp hrest⟩, rfl⟩
      · split at hnext
        · rename_i hx
          cases hnext
          simp only [Bool.or_eq_true, decide_eq_true_eq] at hx
          -- the mark may be followed by a sign, which may be left out
          refine ⟨[x], b, ?_, rest_markSign.mp hrest, rfl⟩
          rcases hx with rfl | rfl <;> simp
        · cases hnext
  · rintro ⟨sign, ds, hsign, hds, rfl⟩
    rcases hsign with rfl | rfl | rfl
    · cases ds with
      | nil => exact absurd rfl hds.1
      | cons x ds =>
        obtain ⟨hx, hrest⟩ := isDigits_cons.mp hds
        exact rest_cons.mpr ⟨.exponent, if_pos hx, rest_exponent.mpr hrest⟩
    · exact rest_cons.mpr ⟨.markSign, rfl, rest_markSign.mpr hds⟩
    · exact rest_cons.mpr ⟨.markSign, rfl, rest_markSign.mpr hds⟩

theorem isExponent_cons {x : UInt8} {b : Bytes} :
    IsExponent (x :: b) ↔ (x = 101 ∨ x = 69) ∧ Rest .mark b := by
  constructor
  · rintro (_ | ⟨hx, hsign, hds⟩)
    exact ⟨hx, rest_mark.mpr ⟨_, _, hsign, hds, rfl⟩⟩
  · rintro ⟨hx, h⟩
    obtain ⟨sign, ds, hsign, hds, rfl⟩ := rest_mark.mp h
    exact .mark hx hsign hds

/-- A part that goes on with digits until something else comes. -/
theorem rest_digits {loop : NumberPart} {After : Bytes → Prop}
    (hloop : ∀ x, isDigit x → loop.next? x = some loop) (hnil : loop.complete) (hafter : After [])
    (hcons : ∀ x b, After (x :: b) ↔ isDigit x = false ∧ Rest loop (x :: b)) {b : Bytes} :
    Rest loop b ↔ ∃ ds r, AllDigits ds ∧ After r ∧ b = ds ++ r := by
  constructor
  · intro h
    induction b with
    | nil => exact ⟨[], [], allDigits_nil, hafter, rfl⟩
    | cons x b ih =>
      cases hx : isDigit x with
      -- the first octet that is no digit is where the rest begins
      | false => exact ⟨[], x :: b, allDigits_nil, (hcons x b).mpr ⟨hx, h⟩, rfl⟩
      | true =>
        obtain ⟨next, hnext, hrest⟩ := rest_cons.mp h
        rw [hloop x hx] at hnext
        cases hnext
        obtain ⟨ds, r, hds, hr, rfl⟩ := ih hrest
        exact ⟨x :: ds, r, allDigits_cons.mpr ⟨hx, hds⟩, hr, rfl⟩
  · rintro ⟨ds, r, hds, hr, rfl⟩
    induction ds with
    | nil =>
      cases r with
      | nil => exact rest_nil.mpr hnil
      | cons x r => exact ((hcons x r).mp hr).2
    | cons x ds ih =>
      obtain ⟨hx, hds⟩ := allDigits_cons.mp hds
      exact rest_cons.mpr ⟨loop, hloop x hx, ih hds⟩

theorem rest_fraction {b : Bytes} :
    Rest .fraction b ↔ ∃ ds e, AllDigits ds ∧ IsExponent e ∧ b = ds ++ e := by
  have hloop (x : UInt8) (hx : isDigit x) : NumberPart.next? .fraction x = some .fraction := if_pos hx
  refine rest_digits hloop rfl .none fun x b => ?_
  rw [isExponent_cons, rest_cons]
  constructor
  · rintro ⟨hx, hrest⟩
    rcases hx with rfl | rfl <;> exact ⟨by decide, .mark, by decide, hrest⟩
  · rintro ⟨hx, next, hnext, hrest⟩
    simp only [NumberPart.next?, hx, Bool.false_eq_true, if_false] at hnext
    split at hnext
    · rename_i hmark
      cases hnext
      exact ⟨by simpa using hmark, hrest⟩
    · cases hnext

theorem rest_point {b : Bytes} :
    Rest .point b ↔ ∃ ds e, IsDigits ds ∧ IsExponent e ∧ b = ds ++ e := by
  cases b with
  | nil =>
    constructor
    · intro h
      exact absurd (rest_nil.mp h) (by decide)
    · rintro ⟨ds, e, hds, -, h⟩
      exact absurd (List.append_eq_nil_iff.mp h.symm).1 hds.1
  | cons x b =>
    rw [rest_cons]
    constructor
    · rintro ⟨next, hnext, hrest⟩
      simp only [NumberPart.next?] at hnext
      split at hnext
      · rename_i hx
        cases hnext
        -- the first digit has to be there, the others are those of the fraction
        obtain ⟨ds, e, hds, he, rfl⟩ := rest_fraction.mp hrest
        exact ⟨x :: ds, e, isDigits_cons.mpr ⟨hx, hds⟩, he, rfl⟩
      · cases hnext
    · rintro ⟨ds, e, hds, he, h⟩
      cases ds with
      | nil => exact absurd rfl hds.1
      | cons y ds =>
        cases h
        obtain ⟨hx, hrest⟩ := isDigits_cons.mp hds
        exact ⟨.fraction, if_pos hx, rest_fraction.mpr ⟨ds, e, hrest, he, rfl⟩⟩

theorem rest_zero {b : Bytes} :
    Rest .zero b ↔ ∃ f e, IsFraction f ∧ IsExponent e ∧ b = f ++ e := by
  cases b with
  | nil => exact iff_of_true (rest_nil.mpr rfl) ⟨[], [], .none, .none, rfl⟩
  | cons x b =>
    rw [rest_cons]
    constructor
    · rintro ⟨next, hnext, hrest⟩
      simp only [NumberPart.next?] at hnext
      split at hnext
      · rename_i hx
        cases hnext
        -- after a whole number comes a point, or a mark, or nothing
        obtain ⟨ds, e, hds, he, rfl⟩ := rest_point.mp hrest
        subst hx
        exact ⟨46 :: ds, e, .point hds, he, rfl⟩
      · split at hnext
        · rename_i hmark
          cases hnext
          exact ⟨[], x :: b, .none, isExponent_cons.mpr ⟨by simpa using hmark, hrest⟩, rfl⟩
        · cases hnext
    · rintro ⟨f, e, hf, he, h⟩
      cases hf with
      | none =>
        rw [List.nil_append] at h
        subst h
        obtain ⟨hx, hrest⟩ := isExponent_cons.mp he
        rcases hx with rfl | rfl <;> exact ⟨.mark, by decide, hrest⟩
      | point hds =>
        cases h
        exact ⟨.point, rfl, rest_point.mpr ⟨_, e, hds, he, rfl⟩⟩

theorem rest_whole {b : Bytes} :
    Rest .whole b ↔ ∃ ds r, AllDigits ds ∧ Rest .zero r ∧ b = ds ++ r := by
  have hloop (x : UInt8) (hx : isDigit x) : NumberPart.next? .whole x = some .whole := if_pos hx
  refine rest_digits hloop rfl (rest_nil.mpr rfl) fun x b => ?_
  have hsame (hx : isDigit x = false) : NumberPart.next? .whole x = NumberPart.next? .zero x := by
    simp [NumberPart.next?, hx]
  rw [rest_cons, rest_cons]
  constructor
  · rintro ⟨next, hnext, hrest⟩
    have hx : isDigit x = false := by
      simp only [NumberPart.next?] at hnext
      cases hx : isDigit x with
      | false => rfl
      | true =>
        -- neither a point nor a mark is a digit
        split at hnext
        · subst x
          cases hx
        · split at hnext
          · rename_i hmark
            rcases Bool.or_eq_true_iff.mp hmark with h | h <;> cases eq_of_beq h <;> cases hx
          · cases hnext
    exact ⟨hx, next, hsame hx ▸ hnext, hrest⟩
  · rintro ⟨hx, next, hnext, hrest⟩
    exact ⟨next, hsame hx ▸ hnext, hrest⟩

theorem rest_sign {b : Bytes} :
    Rest .sign b ↔ ∃ w r, IsWhole w ∧ Rest .zero r ∧ b = w ++ r := by
  cases b with
  | nil =>
    constructor
    · intro h
      exact absurd (rest_nil.mp h) (by decide)
    · rintro ⟨w, r, hw, -, h⟩
      cases hw <;> cases h
  | cons x b =>
    rw [rest_cons]
    constructor
    · rintro ⟨next, hnext, hrest⟩
      simp only [NumberPart.next?] at hnext
      split at hnext
      · rename_i hx
        cases hnext
        subst hx
        -- a whole number that begins with zero ends there
        exact ⟨[48], b, .zero, hrest, rfl⟩
      · split at hnext
        · rename_i hzero hx
          cases hnext
          obtain ⟨ds, r, hds, hr, rfl⟩ := rest_whole.mp hrest
          exact ⟨x :: ds, r, .digits hx hzero hds, hr, rfl⟩
        · cases hnext
    · rintro ⟨w, r, hw, hr, h⟩
      cases hw with
      | zero =>
        cases h
        exact ⟨.zero, rfl, hr⟩
      | digits hx hzero hds =>
        cases h
        exact ⟨.whole, (if_neg hzero).trans (if_pos hx), rest_whole.mpr ⟨_, r, hds, hr, rfl⟩⟩

/-- A number is a minus and what may follow a sign, or only that. -/
theorem isNumber_iff {b : Bytes} : IsNumber b ↔ (∃ c, b = 45 :: c ∧ Rest .sign c) ∨ Rest .sign b := by
  constructor
  · rintro ⟨hsign, hwhole, hfraction, hexponent⟩
    have hrest := rest_sign.mpr ⟨_, _, hwhole, rest_zero.mpr ⟨_, _, hfraction, hexponent, rfl⟩, rfl⟩
    rcases hsign with rfl | rfl
    · exact .inr hrest
    · exact .inl ⟨_, rfl, hrest⟩
  · have hparts {sign b : Bytes} (hsign : sign = [] ∨ sign = [45]) (h : Rest .sign b) :
        IsNumber (sign ++ b) := by
      obtain ⟨w, r, hw, hr, rfl⟩ := rest_sign.mp h
      obtain ⟨f, e, hf, he, rfl⟩ := rest_zero.mp hr
      exact .parts hsign hw hf he
    rintro (⟨c, rfl, h⟩ | h)
    · exact hparts (.inr rfl) h
    · exact hparts (.inl rfl) h

end Acme.Json.Node
