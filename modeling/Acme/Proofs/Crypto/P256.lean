import Acme.Crypto.P256
import Acme.Proofs.Base64
import Acme.Proofs.Crypto.Modular
import Mathlib.Algebra.Ring.Fin
import Mathlib.Tactic.LinearCombination
import Mathlib.Tactic.NormNum.Prime

/-!
# Points of P-256

The number `p` is prime, so that every field element but zero has an inverse. Doubling and adding keep
triples on the curve (`Triple.onCurve_double`, `Triple.onCurve_add`), and therefore the multiples of the
generator are points of the curve (`onCurve_of_generatorMultiple?`).

A point of the curve is read as it was written, in the form in which it was written, if it is written
with both coordinates (`point?_bytes`). Since one coordinate and the parity of the other are enough to find
a point of the curve (`decompress?_of_onCurve`), this is so in every form (`point?_bytes_form`).
-/

namespace Acme.P256

/-! ### The field -/

def smallPrimes : List Nat :=
  [2, 3, 5, 7, 11, 17, 23, 53, 107, 173, 197, 257, 641, 1531, 2411, 3677, 3769, 17449, 18169, 65537,
    78283, 490463, 704251]

theorem prime_of_mem_smallPrimes : ∀ q ∈ smallPrimes, q.Prime := by
  simp only [smallPrimes, List.forall_mem_cons, List.not_mem_nil, false_implies, implies_true, and_true]
  norm_num

/-- Numbers up to the prime of the field, each of them with its predecessor taken apart. -/
def certificates : List Modular.Certificate := [
  ⟨6700417, 5, [2, 2, 2, 2, 2, 2, 2, 3, 17449]⟩,
  ⟨204061199, 11, [2, 11, 23, 107, 3769]⟩,
  ⟨34282281433, 17, [2, 2, 2, 3, 7, 204061199]⟩,
  ⟨66417393611, 6, [2, 5, 53, 173, 197, 3677]⟩,
  ⟨11290956913871, 13, [2, 5, 17, 66417393611]⟩,
  ⟨46076956964474543, 5, [2, 23, 18169, 78283, 704251]⟩,
  ⟨774023187263532362759620327192479577272145303, 3,
    [2, 3, 3, 2411, 34282281433, 11290956913871, 46076956964474543]⟩,
  ⟨835945042244614951780389953367877943453916927241, 11,
    [2, 2, 2, 3, 3, 3, 5, 774023187263532362759620327192479577272145303]⟩,
  ⟨p, 6, [2, 3, 5, 5, 17, 257, 641, 1531, 65537, 490463, 6700417,
    835945042244614951780389953367877943453916927241]⟩]

theorem prime_p : p.Prime := by
  have hcertified : Modular.certified smallPrimes certificates := by decide +kernel
  have hall := Modular.prime_of_certified prime_of_mem_smallPrimes hcertified
  have hne : certificates ≠ [] := List.cons_ne_nil _ _
  exact hall (certificates.getLast hne) (List.getLast_mem hne)

open Fin.CommRing

theorem mul_inverse {z : Field} (h : z ≠ 0) : z * inverse z = 1 := by
  have hcoprime : Nat.Coprime z.val p := by
    rw [Nat.coprime_comm, prime_p.coprime_iff_not_dvd]
    intro hdvd
    apply h
    have hzero := Nat.eq_zero_of_dvd_of_lt hdvd z.isLt
    exact Fin.ext hzero
  obtain ⟨y, hy, hlt, hone⟩ := Modular.exists_inverse? prime_p.one_lt hcoprime
  apply Fin.ext
  rw [inverse, hy, Fin.val_mul]
  show z.val * (y % p) % p = 1 % p
  rw [Nat.mod_eq_of_lt hlt, hone, Nat.mod_eq_of_lt prime_p.one_lt]

theorem a_eq : a = -3 := by decide +kernel

/-! ### The group -/

namespace Triple

/-- The equation of the curve for three coordinates. -/
def OnCurve (t : Triple) : Prop :=
  t.y * t.y = t.x * t.x * t.x + a * t.x * (t.z * t.z * t.z * t.z)
    + b * (t.z * t.z * t.z * t.z * t.z * t.z)

theorem onCurve_infinity : infinity.OnCurve := by
  show (1 : Field) * 1 = 1 * 1 * 1 + a * 1 * (0 * 0 * 0 * 0) + b * (0 * 0 * 0 * 0 * 0 * 0)
  ring

theorem onCurve_ofPoint {q : Point} (h : q.onCurve) : (ofPoint q).OnCurve := by
  have hequation : q.y * q.y = rightSide q.x := by simpa [Point.onCurve] using h
  show q.y * q.y = q.x * q.x * q.x + a * q.x * (1 * 1 * 1 * 1) + b * (1 * 1 * 1 * 1 * 1 * 1)
  rw [hequation, rightSide]
  ring

theorem onCurve_double {t : Triple} (h : t.OnCurve) : t.double.OnCurve := by
  unfold double
  split
  · exact onCurve_infinity
  · unfold OnCurve at h ⊢
    dsimp only
    rw [a_eq] at h ⊢
    -- the tangent meets the curve again at the point that is opposite
    linear_combination 64 * (t.y * t.y * t.y * t.y * t.y * t.y) * h

/-- The line through two points meets the curve again at the point that is opposite to their sum. -/
theorem chord {x₁ y₁ x₂ y₂ A B : Field} (h₁ : y₁ * y₁ = x₁ * x₁ * x₁ + A * x₁ + B)
    (h₂ : y₂ * y₂ = x₂ * x₂ * x₂ + A * x₂ + B) {h r x y : Field} (hh : h = x₂ - x₁)
    (hr : r = y₂ - y₁) (hx : x = r * r - h * h * h - x₁ * (h * h) - x₁ * (h * h))
    (hy : y = r * (x₁ * (h * h) - x) - y₁ * (h * h * h)) :
    y * y = x * x * x + A * (h * h * h * h) * x + B * (h * h * h * h * h * h) := by
  obtain rfl : x₂ = x₁ + h := by rw [hh]; ring
  obtain rfl : y₂ = y₁ + r := by rw [hr]; ring
  subst hy hx
  linear_combination
    (h * h * h * (r * r - h * h * h - x₁ * (h * h) - x₁ * (h * h)) - h * h * h * h * h * x₁) * h₂
      + (h * h * h * h * h * h - h * h * h * (r * r - h * h * h - x₁ * (h * h) - x₁ * (h * h))
        + h * h * h * h * h * x₁) * h₁

theorem onCurve_add {t u : Triple} (ht : t.OnCurve) (hu : u.OnCurve) : (t.add u).OnCurve := by
  unfold add
  split
  · exact hu
  split
  · exact ht
  dsimp only
  split
  · split
    · exact onCurve_double ht
    · exact onCurve_infinity
  · -- both points, brought to one denominator
    let z := t.z * u.z
    have h₁ : t.y * (u.z * u.z) * u.z * (t.y * (u.z * u.z) * u.z)
        = t.x * (u.z * u.z) * (t.x * (u.z * u.z)) * (t.x * (u.z * u.z))
          + a * (z * z * z * z) * (t.x * (u.z * u.z)) + b * (z * z * z * z * z * z) := by
      unfold OnCurve at ht
      linear_combination (u.z * u.z * u.z * u.z * u.z * u.z) * ht
    have h₂ : u.y * (t.z * t.z) * t.z * (u.y * (t.z * t.z) * t.z)
        = u.x * (t.z * t.z) * (u.x * (t.z * t.z)) * (u.x * (t.z * t.z))
          + a * (z * z * z * z) * (u.x * (t.z * t.z)) + b * (z * z * z * z * z * z) := by
      unfold OnCurve at hu
      linear_combination (t.z * t.z * t.z * t.z * t.z * t.z) * hu
    have hsum := chord h₁ h₂ rfl rfl rfl rfl
    unfold OnCurve
    dsimp only
    linear_combination hsum

theorem onCurve_multiple {t : Triple} (h : t.OnCurve) (k : Nat) : (t.multiple k).OnCurve := by
  induction k using Nat.strongRecOn with
  | ind k ih =>
    rw [multiple]
    split
    · exact onCurve_infinity
    · rename_i hpos
      have htwice := onCurve_double (ih (k / 2) (Nat.div_lt_self (by omega) (by omega)))
      dsimp only
      split
      · exact htwice
      · exact onCurve_add htwice h

/-- The point of a triple on the curve is on the curve. -/
theorem onCurve_of_toPoint? {t : Triple} {q : Point} (h : t.OnCurve) (hq : t.toPoint? = some q) :
    q.onCurve := by
  unfold toPoint? at hq
  split at hq
  · cases hq
  · rename_i hz
    cases hq
    have hw := mul_inverse hz
    generalize inverse t.z = w at hw ⊢
    unfold OnCurve at h
    rw [Point.onCurve, beq_iff_eq, rightSide]
    dsimp only
    -- the third coordinate and its inverse cancel in every term
    let s := t.z * w
    linear_combination (w * w * w * w * w * w) * h
      + (a * t.x * (w * w) * (s * s * s + s * s + s + 1)
        + b * (s * s * s * s * s + s * s * s * s + s * s * s + s * s + s + 1)) * hw

end Triple

/-- The multiples of the generator are points of the curve. -/
theorem onCurve_of_generatorMultiple? {k : Nat} {q : Point} (h : generatorMultiple? k = some q) :
    q.onCurve := by
  have hgenerator : generator.onCurve := by decide +kernel
  exact Triple.onCurve_of_toPoint?
    (Triple.onCurve_multiple (Triple.onCurve_ofPoint hgenerator) (k % n)) h

/-! ### Written points -/

theorem length_fieldBytes (x : Field) : (fieldBytes x).length = 32 := Bytes.length_ofNatWidth 32 _

theorem p_le : p ≤ Bytes.capacity 32 := by decide +kernel

theorem toNat_fieldBytes (x : Field) : Bytes.toNat (fieldBytes x) = x.val := by
  rw [fieldBytes, Bytes.toNat_ofNatWidth]
  exact Nat.mod_eq_of_lt (Nat.lt_of_lt_of_le x.isLt p_le)

theorem field?_fieldBytes (x : Field) : field? (fieldBytes x) = some x := by
  have hlt : Bytes.toNat (fieldBytes x) < p := by
    rw [toNat_fieldBytes]
    exact x.isLt
  have hsame : x = ⟨Bytes.toNat (fieldBytes x), hlt⟩ :=
    Fin.eq_mk_iff_val_eq.mpr (toNat_fieldBytes x).symm
  unfold field?
  rw [dif_pos hlt, if_pos (length_fieldBytes x)]
  exact congrArg some hsame.symm

theorem checked?_val (q : CurvePoint) : q.val.checked? = some q := dif_pos q.property

/-- A point of the curve is read as it was written, with both coordinates. -/
theorem point?_bytes (q : CurvePoint) {form : PointForm} (hform : form ≠ .compressed) :
    point? (q.val.bytes form) = some (q, form) := by
  have htake : (fieldBytes q.val.x ++ fieldBytes q.val.y).take 32 = fieldBytes q.val.x :=
    List.take_left' (length_fieldBytes q.val.x)
  have hdrop : (fieldBytes q.val.x ++ fieldBytes q.val.y).drop 32 = fieldBytes q.val.y :=
    List.drop_left' (length_fieldBytes q.val.x)
  have hcurve : (⟨q.val.x, q.val.y⟩ : Point).checked? = some q := checked?_val q
  cases form with
  | compressed => exact absurd rfl hform
  | uncompressed =>
    show point? (4 :: (fieldBytes q.val.x ++ fieldBytes q.val.y)) = _
    rw [point?, if_neg (by decide), if_pos (by decide), htake, hdrop, field?_fieldBytes,
      field?_fieldBytes]
    simp [hcurve]
  | hybrid =>
    -- the first octet of this form tells the parity, which is compared with the coordinate
    have hparity : q.val.y.val % 2 = 0 ∨ q.val.y.val % 2 = 1 := Nat.mod_two_eq_zero_or_one _
    show point? ((6 + q.val.y.val % 2).toUInt8 :: (fieldBytes q.val.x ++ fieldBytes q.val.y)) = _
    rcases hparity with hparity | hparity <;>
    · rw [hparity, point?, if_neg (by decide), if_pos (by decide), htake, hdrop, field?_fieldBytes,
        field?_fieldBytes]
      simp [hcurve, hparity]

/-- A point of the curve is found by its first coordinate and the parity of the second. -/
theorem decompress?_of_onCurve {q : Point} (h : q.onCurve) :
    decompress? q.x (q.y.val % 2) = some q := by
  have hequation : rightSide q.x = q.y * q.y := (beq_iff_eq.mp h).symm
  have hodd : p % 4 = 3 := by decide
  let r := power (q.y * q.y) ((p + 1) / 4)
  have hvalue : r.val = Modular.pow p (q.y.val * q.y.val % p) ((p + 1) / 4) := by
    show Modular.pow p (q.y.val * q.y.val % p) _ % p = _
    rw [Modular.pow_eq, Nat.mod_mod]
  have hsquare : r.val * r.val % p = q.y.val * q.y.val % p := by
    rw [hvalue]
    exact Modular.pow_mul_pow_of_square prime_p hodd q.y.val
  have hroot : root? (rightSide q.x) = some r := by
    rw [root?, hequation]
    exact if_pos (Fin.ext hsquare)
  rw [decompress?, hroot]
  simp only [Option.bind_eq_bind, Option.bind_some]
  -- the roots are opposite, and the prime is odd: only one of them has the parity
  rcases Modular.eq_or_add_eq_of_mul_self prime_p r.isLt q.y.isLt hsquare with hsame | hopposite
  · obtain hr : r = q.y := Fin.ext hsame
    rw [hr, if_pos rfl, if_pos rfl]
  · have hother : ¬ r.val % 2 = q.y.val % 2 := by omega
    have hnegated : 0 - r = q.y := by
      apply Fin.ext
      show (p - r.val + 0) % p = q.y.val
      have hy := q.y.isLt
      rw [show p - r.val + 0 = q.y.val by omega, Nat.mod_eq_of_lt hy]
    rw [if_neg hother, hnegated, if_pos rfl]

/-- A point of the curve is read as it was written, in any form. -/
theorem point?_bytes_form (q : CurvePoint) (form : PointForm) :
    point? (q.val.bytes form) = some (q, form) := by
  cases form with
  | compressed =>
    have hparity : q.val.y.val % 2 = 0 ∨ q.val.y.val % 2 = 1 := Nat.mod_two_eq_zero_or_one _
    have hfound := decompress?_of_onCurve q.property
    show point? ((2 + q.val.y.val % 2).toUInt8 :: fieldBytes q.val.x) = _
    rcases hparity with hparity | hparity <;>
    · rw [hparity] at hfound ⊢
      rw [point?, if_pos (by decide)]
      exact Option.bind_eq_some_iff.mpr ⟨q.val.x, field?_fieldBytes q.val.x,
        Option.bind_eq_some_iff.mpr ⟨q.val, hfound,
          Option.bind_eq_some_iff.mpr ⟨q, checked?_val q, rfl⟩⟩⟩
  | uncompressed => exact point?_bytes q (by decide)
  | hybrid => exact point?_bytes q (by decide)

/-- No point is written like the one at infinity. -/
theorem bytes_ne_infinityBytes (q : CurvePoint) (form : PointForm) :
    q.val.bytes form ≠ infinityBytes := by
  intro h
  have hnone : point? infinityBytes = none := by decide
  have hread := point?_bytes_form q form
  rw [h, hnone] at hread
  cases hread

end Acme.P256
