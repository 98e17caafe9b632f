/-!
# Running work that may fail

`ExceptT ε (StateM σ) α` is a function from a state to a result and a state. These are the equations
of the functions that its notation stands for: what comes first is run first, and an error ends
everything but keeps the state that it was met in.
-/

namespace Acme.Stateful

universe u

variable {ε δ σ α β : Type u} (s : σ)

theorem pure_apply (a : α) : (pure a : ExceptT ε (StateM σ) α) s = (.ok a, s) := rfl

theorem throw_apply (e : ε) : (throw e : ExceptT ε (StateM σ) α) s = (.error e, s) := rfl

theorem bind_apply (x : ExceptT ε (StateM σ) α) (f : α → ExceptT ε (StateM σ) β) :
    (x >>= f) s =
      match x s with
      | (.ok a, t) => f a t
      | (.error e, t) => (.error e, t) := by
  show (match x s with | (r, t) => ExceptT.bindCont f r t) = _
  obtain ⟨r, t⟩ := x s
  cases r <;> rfl

theorem bind_ok {x : ExceptT ε (StateM σ) α} {f : α → ExceptT ε (StateM σ) β} {s t : σ} {a : α}
    (h : x s = (.ok a, t)) : (x >>= f) s = f a t := by
  rw [bind_apply, h]

theorem bind_error {x : ExceptT ε (StateM σ) α} {f : α → ExceptT ε (StateM σ) β} {s t : σ} {e : ε}
    (h : x s = (.error e, t)) : (x >>= f) s = (.error e, t) := by
  rw [bind_apply, h]

theorem map_ok {x : ExceptT ε (StateM σ) α} {f : α → β} {s t : σ} {a : α} (h : x s = (.ok a, t)) :
    (f <$> x) s = (.ok (f a), t) := by
  rw [map_eq_pure_bind]
  exact bind_ok h

theorem map_error {x : ExceptT ε (StateM σ) α} {f : α → β} {s t : σ} {e : ε}
    (h : x s = (.error e, t)) : (f <$> x) s = (.error e, t) := by
  rw [map_eq_pure_bind]
  exact bind_error h

@[simp] theorem mapError_ok (wrap : ε → δ) (a : α) : (Except.ok a).mapError wrap = .ok a := rfl

@[simp] theorem mapError_error (wrap : ε → δ) (e : ε) :
    (Except.error e : Except ε α).mapError wrap = .error (wrap e) := rfl

theorem adapt_apply (wrap : ε → δ) (x : ExceptT ε (StateM σ) α) :
    x.adapt wrap s = ((x s).1.mapError wrap, (x s).2) := rfl

theorem get_apply : (get : ExceptT ε (StateM σ) σ) s = (.ok s, s) := rfl

theorem mk_pure_apply (r : Except ε α) : (ExceptT.mk (pure r) : ExceptT ε (StateM σ) α) s = (r, s) :=
  rfl

end Acme.Stateful
