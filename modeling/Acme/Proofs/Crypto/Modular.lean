import Acme.Crypto.Modular
import Mathlib.Data.Int.ModEq
import Mathlib.Data.List.Prime
import Mathlib.FieldTheory.Finite.Basic
import Mathlib.NumberTheory.LucasPrimality
import Mathlib.RingTheory.Int.Basic
import Mathlib.Tactic.Ring

/-!
# Inverses, primes and square roots

The factor that `Modular.euclid` gives back produces the greatest common divisor (`euclid_spec`), so
every number that has no divisor in common with the modulus has an inverse (`exists_inverse?`).

That a large number is prime is proved with a root and the prime factors of its predecessor (the test of
Lucas), whose powers `Modular.pow` computes.

Modulo a prime number that leaves 3 when divided by 4, one of these powers is a square root of every square
(`pow_mul_pow_of_square`), and there are no others but it and its negative (`eq_or_add_eq_of_mul_self`).
-/

namespace Acme.Modular

/-! ### Inverses -/

/-- The greatest common divisor, and a factor that produces it modulo any number for which the two
factors that are given produce the two numbers. -/
theorem euclid_spec {m : Nat} {x : Int} {a b : Nat} {s t : Int} (ha : s * x ≡ a [ZMOD m])
    (hb : t * x ≡ b [ZMOD m]) :
    (euclid a b s t).1 = Nat.gcd a b ∧ (euclid a b s t).2 * x ≡ Nat.gcd a b [ZMOD m] := by
  induction b using Nat.strongRecOn generalizing a s t with
  | ind b ih =>
    rw [euclid]
    split
    · rename_i hzero
      subst hzero
      rw [Nat.gcd_zero_right]
      exact ⟨rfl, ha⟩
    · rename_i hpos
      have hlt : a % b < b := Nat.mod_lt _ (by omega)
      -- the next remainder is produced by the next factor
      have hnext : (s - (a / b : Nat) * t) * x ≡ (a % b : Nat) [ZMOD m] := by
        have hsub := ha.sub (hb.mul_left ((a / b : Nat) : Int))
        have hrest : (a : Int) - (a / b : Nat) * b = (a % b : Nat) := by
          have hdiv : ((a / b * b + a % b : Nat) : Int) = a := by rw [Nat.div_add_mod']
          rw [Nat.cast_add, Nat.cast_mul] at hdiv
          omega
        rw [hrest] at hsub
        calc (s - (a / b : Nat) * t) * x = s * x - (a / b : Nat) * (t * x) := by ring
          _ ≡ _ [ZMOD m] := hsub
      have hgcd : Nat.gcd a b = Nat.gcd b (a % b) := by
        rw [Nat.gcd_comm a b, Nat.gcd_rec b a, Nat.gcd_comm]
      rw [hgcd]
      exact ih (a % b) hlt hb hnext

/-- A number that has no divisor in common with the modulus has an inverse. -/
theorem exists_inverse? {m x : Nat} (hm : 1 < m) (h : Nat.Coprime x m) :
    ∃ y, inverse? m x = some y ∧ y < m ∧ x * y % m = 1 := by
  have hfirst : (1 : Int) * x ≡ (x % m : Nat) [ZMOD m] := by
    rw [one_mul, Int.natCast_mod]
    exact (Int.mod_modEq _ _).symm
  have hsecond : (0 : Int) * x ≡ (m : Nat) [ZMOD m] := by
    rw [zero_mul]
    exact (Int.modEq_zero_iff_dvd.mpr dvd_rfl).symm
  obtain ⟨hgcd, hfactor⟩ := euclid_spec hfirst hsecond
  -- the last remainder is the common divisor, so it is one
  have hone : Nat.gcd (x % m) m = 1 := by
    rw [← Nat.gcd_rec, Nat.gcd_comm]
    exact h
  rw [hone] at hgcd hfactor
  rcases hrun : euclid (x % m) m 1 0 with ⟨g, s⟩
  rw [hrun] at hgcd hfactor
  obtain rfl : g = 1 := hgcd
  have hpos : (0 : Int) < m := by omega
  have hnonneg := Int.emod_nonneg s hpos.ne'
  have hlt := Int.emod_lt_of_pos s hpos
  have hinverse : inverse? m x = some (s % m).toNat := by
    unfold inverse?
    rw [hrun]
    rfl
  refine ⟨(s % m).toNat, hinverse, by omega, ?_⟩
  -- its factor is the inverse, brought into the range of the modulus
  have hproduct : (x * (s % m).toNat : Int) ≡ 1 [ZMOD m] := by
    rw [Int.toNat_of_nonneg hnonneg]
    calc (x * (s % m) : Int) ≡ x * s [ZMOD m] := (Int.mod_modEq s m).mul_left _
      _ = s * x := mul_comm _ _
      _ ≡ 1 [ZMOD m] := hfactor
  have hmod : x * (s % m).toNat ≡ 1 [MOD m] := by
    rw [← Int.natCast_modEq_iff]
    exact_mod_cast hproduct
  rw [hmod, Nat.mod_eq_of_lt hm]

/-! ### Primes -/

/-- What proves a number prime: a root, and the factors of its predecessor. -/
structure Certificate where
  number : Nat
  root : Nat
  factors : List Nat

/-- Whether the factors are known to be prime and are all there are, and the powers of the root are as
the test of Lucas wants them. -/
def Certificate.holds (known : List Nat) (c : Certificate) : Bool :=
  1 < c.number && c.factors.all known.contains && c.factors.prod == c.number - 1
    && pow c.number c.root (c.number - 1) == 1
    && c.factors.all fun q => pow c.number c.root ((c.number - 1) / q) != 1

/-- Whether certificates hold one after another, with the numbers of those before. -/
def certified (known : List Nat) : List Certificate → Bool
  | [] => true
  | c :: rest => c.holds known && certified (c.number :: known) rest

theorem pow_eq_one_iff {m : Nat} (hm : 1 < m) (x e : Nat) :
    pow m x e = 1 ↔ (x : ZMod m) ^ e = 1 := by
  have hcast : (x : ZMod m) ^ e = 1 ↔ ((x ^ e : Nat) : ZMod m) = (1 : Nat) := by
    rw [Nat.cast_pow, Nat.cast_one]
  rw [hcast, ZMod.natCast_eq_natCast_iff', Nat.one_mod_eq_one.mpr (by omega), pow_eq, Nat.pow_eq]

theorem Certificate.prime {known : List Nat} {c : Certificate} (hknown : ∀ q ∈ known, q.Prime)
    (h : c.holds known) : c.number.Prime := by
  simp only [holds, Bool.and_eq_true, decide_eq_true_eq, List.all_eq_true, List.contains_iff_mem,
    beq_iff_eq, bne_iff_ne] at h
  obtain ⟨⟨⟨⟨hlarge, hprime⟩, hproduct⟩, hfull⟩, hpart⟩ := h
  refine lucas_primality c.number c.root ((pow_eq_one_iff hlarge _ _).mp hfull) fun q hq hdvd => ?_
  -- a prime that divides the predecessor is one of the factors
  rw [← hproduct] at hdvd
  obtain ⟨r, hr, hqr⟩ := (Prime.dvd_prod_iff hq.prime).mp hdvd
  obtain rfl : q = r := (Nat.prime_dvd_prime_iff_eq hq (hknown r (hprime r hr))).mp hqr
  exact fun hone => hpart q hr ((pow_eq_one_iff hlarge _ _).mpr hone)

/-- Numbers are prime if certificates for them hold one after another. -/
theorem prime_of_certified {known : List Nat} {cs : List Certificate}
    (hknown : ∀ q ∈ known, q.Prime) (h : certified known cs) : ∀ c ∈ cs, c.number.Prime := by
  induction cs generalizing known with
  | nil => simp
  | cons first rest ih =>
    rw [certified, Bool.and_eq_true] at h
    have hfirst := Certificate.prime hknown h.1
    have hmore : ∀ q ∈ first.number :: known, q.Prime := by
      intro q hq
      rcases List.mem_cons.mp hq with rfl | hq
      · exact hfirst
      · exact hknown q hq
    intro c hc
    rcases List.mem_cons.mp hc with rfl | hc
    · exact hfirst
    · exact ih hmore h.2 c hc

/-! ### Square roots -/

/-- A square has this power as a root, if the prime leaves 3 when divided by 4. -/
theorem pow_mul_pow_of_square {m : Nat} (hm : m.Prime) (hfour : m % 4 = 3) (x : Nat) :
    pow m (x * x % m) ((m + 1) / 4) * pow m (x * x % m) ((m + 1) / 4) % m = x * x % m := by
  have hfermat : x ^ m ≡ x [MOD m] := by
    have := Fact.mk hm
    rw [← ZMod.natCast_eq_natCast_iff, Nat.cast_pow, ZMod.pow_card]
  have hroot : pow m (x * x % m) ((m + 1) / 4) ≡ (x * x) ^ ((m + 1) / 4) [MOD m] := by
    rw [pow_eq]
    exact (Nat.mod_modEq _ _).trans ((Nat.mod_modEq _ _).pow _)
  have hexponent : 2 * ((m + 1) / 4) + 2 * ((m + 1) / 4) = m + 1 := by omega
  calc pow m (x * x % m) ((m + 1) / 4) * pow m (x * x % m) ((m + 1) / 4)
      ≡ (x * x) ^ ((m + 1) / 4) * (x * x) ^ ((m + 1) / 4) [MOD m] := hroot.mul hroot
    _ = x ^ (m + 1) := by rw [← pow_two x, ← pow_mul, ← pow_add, hexponent]
    _ = x ^ m * x := pow_succ x m
    _ ≡ x * x [MOD m] := hfermat.mul_right x

/-- A square has two roots modulo a prime, which are opposite. -/
theorem eq_or_add_eq_of_mul_self {m x y : Nat} (hm : m.Prime) (hx : x < m) (hy : y < m)
    (h : x * x % m = y * y % m) : x = y ∨ x + y = m := by
  -- a prime that divides a product divides one of its factors
  have hdvd : (m : Int) ∣ (x - y) * (x + y) := by
    have hsub := (Int.natCast_modEq_iff.mpr (show x * x ≡ y * y [MOD m] from h)).symm.dvd
    have hfactors : ((x * x : Nat) : Int) - (y * y : Nat) = (x - y) * (x + y) := by
      push_cast
      ring
    rwa [hfactors] at hsub
  rcases (Nat.prime_iff_prime_int.mp hm).dvd_or_dvd hdvd with hsame | hopposite
  · have hzero := Int.eq_zero_of_abs_lt_dvd hsame (by rw [abs_lt]; omega)
    exact .inl (by omega)
  · obtain ⟨k, hk⟩ := hopposite
    -- the sum is less than twice the modulus
    have hk2 : k < 2 := by
      by_contra hlarge
      have hle : (m : Int) * 2 ≤ m * k := Int.mul_le_mul_of_nonneg_left (by omega) (by omega)
      omega
    have hk0 : 0 ≤ k := by
      by_contra hneg
      have hle : (m : Int) * k ≤ m * (-1) := Int.mul_le_mul_of_nonneg_left (by omega) (by omega)
      omega
    obtain rfl | rfl : k = 0 ∨ k = 1 := by omega
    · exact .inl (by omega)
    · exact .inr (by omega)

end Acme.Modular
