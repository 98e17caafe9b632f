import Mathlib.Data.List.Forall2

/-!
# The first failure

A loop over a list that stops at the first failure: it succeeds if every step does
(`mapM_eq_ok_iff`), and otherwise fails as the first step that fails (`mapM_eq_error_iff`), which is
the first element of some kind (`IsFirst`). A search stops in the same way (`findSome?_eq_some_iff`).
-/

namespace Acme

/-- The first element of a list for which something holds. -/
def IsFirst {α : Type} (bad : α → Prop) (xs : List α) (x : α) : Prop :=
  ∃ before after, xs = before ++ x :: after ∧ bad x ∧ ∀ y ∈ before, ¬ bad y

variable {α β ε : Type} {bad : α → Prop} {f : α → Except ε β} {xs : List α} {x y : α}

theorem isFirst_cons :
    IsFirst bad (x :: xs) y ↔ bad x ∧ y = x ∨ ¬ bad x ∧ IsFirst bad xs y := by
  constructor
  · rintro ⟨before, after, heq, hbad, hbefore⟩
    cases before with
    | nil =>
      cases heq
      exact .inl ⟨hbad, rfl⟩
    | cons z before =>
      cases heq
      exact .inr ⟨hbefore x (by simp), before, after, rfl, hbad, fun y hy => hbefore y (by simp [hy])⟩
  · rintro (⟨hbad, rfl⟩ | ⟨hgood, before, after, rfl, hbad, hbefore⟩)
    · exact ⟨[], xs, rfl, hbad, List.forall_mem_nil _⟩
    · exact ⟨x :: before, after, rfl, hbad, List.forall_mem_cons.mpr ⟨hgood, hbefore⟩⟩

theorem isFirst_congr {p q : α → Prop} (h : ∀ x ∈ xs, p x ↔ q x) :
    IsFirst p xs x ↔ IsFirst q xs x := by
  refine exists₂_congr fun before after => and_congr_right fun heq => ?_
  subst heq
  refine and_congr (h x (by simp)) (forall₂_congr fun y hy => ?_)
  rw [h y (by simp [hy])]

theorem IsFirst.unique (hx : IsFirst bad xs x)
    (hy : IsFirst bad xs y) : x = y := by
  induction xs with
  | nil =>
    obtain ⟨before, after, heq, -⟩ := hx
    simp at heq
  | cons z xs ih =>
    rcases isFirst_cons.mp hx with ⟨hbad, rfl⟩ | ⟨hgood, hx⟩
    · rcases isFirst_cons.mp hy with ⟨-, rfl⟩ | ⟨hgood, -⟩
      · rfl
      · exact absurd hbad hgood
    · rcases isFirst_cons.mp hy with ⟨hbad, -⟩ | ⟨-, hy⟩
      · exact absurd hbad hgood
      · exact ih hx hy

theorem IsFirst.mem (h : IsFirst bad xs x) : x ∈ xs ∧ bad x := by
  obtain ⟨before, after, rfl, hbad, -⟩ := h
  exact ⟨by simp, hbad⟩

theorem exists_isFirst (h : ∃ x ∈ xs, bad x) : ∃ x, IsFirst bad xs x := by
  induction xs with
  | nil => simp at h
  | cons x xs ih =>
    simp only [isFirst_cons]
    by_cases hx : bad x
    · exact ⟨x, .inl ⟨hx, rfl⟩⟩
    · obtain ⟨y, hy⟩ := ih (by simpa [hx] using h)
      exact ⟨y, .inr ⟨hx, hy⟩⟩

/-- A search finds what the first element gives that gives anything. -/
theorem findSome?_eq_some_iff {g : α → Option β} {b : β} :
    xs.findSome? g = some b ↔ ∃ x, IsFirst (fun x => g x ≠ none) xs x ∧ g x = some b := by
  rw [List.findSome?_eq_some_iff]
  constructor
  · rintro ⟨before, x, after, heq, hx, hbefore⟩
    exact ⟨x, ⟨before, after, heq, by simp [hx], by simpa using hbefore⟩, hx⟩
  · rintro ⟨x, ⟨before, after, heq, -, hbefore⟩, hx⟩
    exact ⟨before, x, after, heq, hx, by simpa using hbefore⟩

/-- Two steps succeed if the first one does and then the second. -/
theorem bind_eq_ok_iff {x : Except ε α} {f : α → Except ε β} {b : β} :
    x >>= f = .ok b ↔ ∃ a, x = .ok a ∧ f a = .ok b := by
  cases x <;> simp [bind, Except.bind]

theorem map_eq_ok_iff {x : Except ε α} {f : α → β} {b : β} :
    f <$> x = .ok b ↔ ∃ a, x = .ok a ∧ f a = b := by
  cases x <;> simp [Functor.map, Except.map]

/-- A loop succeeds with what each step gives. -/
theorem mapM_eq_ok_iff {ys : List β} :
    xs.mapM f = .ok ys ↔ List.Forall₂ (fun x y => f x = .ok y) xs ys := by
  induction xs generalizing ys with
  | nil =>
    rw [List.mapM_nil, List.forall₂_nil_left_iff]
    exact ⟨fun h => (Except.ok.inj h).symm, fun h => congrArg _ h.symm⟩
  | cons x xs ih =>
    rw [List.mapM_cons, List.forall₂_cons_left_iff]
    cases hx : f x with
    | error e => simp [bind, Except.bind]
    | ok y =>
      cases hxs : xs.mapM f with
      | error e => simp [bind, Except.bind, ← ih, hxs]
      | ok zs => simp [bind, Except.bind, pure, Except.pure, ← ih, hxs, eq_comm]

/-- A loop fails at the first step that does. -/
theorem mapM_eq_error_iff {e : ε} :
    xs.mapM f = .error e ↔ ∃ x, IsFirst (fun x => ∃ e, f x = .error e) xs x ∧ f x = .error e := by
  induction xs with
  | nil =>
    rw [List.mapM_nil]
    constructor
    · intro h
      cases h
    · rintro ⟨x, ⟨before, after, heq, -⟩, -⟩
      simp at heq
  | cons x xs ih =>
    rw [List.mapM_cons]
    simp only [isFirst_cons]
    cases hx : f x with
    | error e' => simp [bind, Except.bind, hx]
    | ok y =>
      cases hxs : xs.mapM f with
      | error e' => simp [bind, Except.bind, ← ih, hxs]
      | ok zs => simp [bind, Except.bind, pure, Except.pure, ← ih, hxs]

end Acme
