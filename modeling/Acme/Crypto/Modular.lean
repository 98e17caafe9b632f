/-!
# Arithmetic modulo a number

Powers by repeated squaring, and inverses by the extended algorithm of Euclid, which keeps for each
remainder the factor that produces it. `pow_eq` says what a power is.
-/

namespace Acme.Modular

/-- The power of a number, reduced at every step. -/
def pow (m x : Nat) (e : Nat) : Nat :=
  if e = 0 then 1 % m
  else
    let half := pow m x (e / 2)
    let square := half * half % m
    if e % 2 = 0 then square else square * x % m
termination_by e
decreasing_by exact Nat.div_lt_self (by omega) (by omega)

theorem pow_eq (m x e : Nat) : pow m x e = Nat.pow x e % m := by
  induction e using Nat.strongRecOn with
  | ind e ih =>
    simp only [Nat.pow_eq] at *
    rw [pow]
    split
    · next h => simp [h]
    · have hx : x ^ e = x ^ (e / 2) * x ^ (e / 2) * x ^ (e % 2) := by
        rw [← Nat.pow_add, ← Nat.pow_add]
        congr 1
        omega
      simp only [ih (e / 2) (by omega), ← Nat.mul_mod]
      split
      · next h => rw [hx, h]; simp
      · next h =>
        rw [hx, show e % 2 = 1 by omega, Nat.pow_one, Nat.mod_mul_mod]

/-- Given remainders `a` and `b` and the factors `s` and `t` that produce them, the factor that
produces their greatest common divisor, and that divisor. -/
def euclid (a b : Nat) (s t : Int) : Nat × Int :=
  if b = 0 then (a, s) else euclid b (a % b) t (s - (a / b : Nat) * t)
termination_by b
decreasing_by exact Nat.mod_lt _ (by omega)

/-- The inverse of a number, if it has one. -/
def inverse? (m x : Nat) : Option Nat :=
  match euclid (x % m) m 1 0 with
  | (1, s) => some (s % m).toNat
  | _ => none

end Acme.Modular
