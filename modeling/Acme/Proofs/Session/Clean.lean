import Acme.Proofs.Session.Calls

/-!
# Clean failures

An operation fails cleanly (`Operation.Clean`) if the session is as it was but for its connection, and
if an error of configuration comes before the connection has changed much. The rules follow how
operations are built: parts that change nothing (`Operation.Still`), parts that talk to the server but
do not raise such an error (`Operation.Sure`), and parts of which it is known before the first request
which of the two they are (`Operation.Decided`). The last is what makes loops clean: a fetch that is
made again does not fail for a reason that was there before.

All of this is about the sessions that differ from one in their connection alone (`Session.over`).
-/

namespace Acme

open Stateful

variable {α β ω : Type}

/-- The same session over another connection. -/
def Session.over (s : Session) (c : Connection) : Session := { s with connection := c }

namespace Operation

/-- An operation fails at once and changes nothing. -/
def Stuck (s : Session) (x : Operation α) : Prop :=
  ∀ c, ∃ e, x (s.over c) = (.error e, s.over c)

/-- An operation changes nothing, whether or not it fails. -/
def Still (s : Session) (x : Operation α) (P : α → Prop) : Prop :=
  ∀ c, (∃ e, x (s.over c) = (.error e, s.over c)) ∨ ∃ a, P a ∧ x (s.over c) = (.ok a, s.over c)

/-- An operation may change the connection, but does not fail by an error of configuration. -/
def Sure (s : Session) (x : Operation α) (P : α → Prop) : Prop :=
  ∀ c, (∃ e d, e.isConfig = false ∧ x (s.over c) = (.error e, s.over d))
    ∨ ∃ a d, P a ∧ x (s.over c) = (.ok a, s.over d)

def Decided (s : Session) (x : Operation α) : Prop := Stuck s x ∨ Sure s x fun _ => True

/-- If an operation fails, it has changed nothing but the connection; and if by an error of
configuration, the connection no further than is said. -/
def Clean (s : Session) (far : Connection → Connection → Prop) (x : Operation α) : Prop :=
  ∀ c e, (x (s.over c)).1 = .error e →
    ∃ d, (x (s.over c)).2 = s.over d ∧ (e.isConfig = true → far c d)

/-- No distance at all: there are no errors of configuration any more. -/
def nowhere (_ _ : Connection) : Prop := False

variable {s : Session} {P : α → Prop} {Q : β → Prop} {far : Connection → Connection → Prop}

namespace Stuck

theorem throw (e : SessionError) : Stuck s (MonadExcept.throw e : Operation α) := fun _ => ⟨e, rfl⟩

theorem bind {x : Operation α} (hx : Stuck s x) (f : α → Operation β) : Stuck s (x >>= f) := by
  intro c
  obtain ⟨e, he⟩ := hx c
  exact ⟨e, bind_error he⟩

theorem clean (hfar : ∀ c, far c c) {x : Operation α} (hx : Stuck s x) : Clean s far x := by
  intro c e _
  obtain ⟨e', he⟩ := hx c
  rw [he]
  exact ⟨c, rfl, fun _ => hfar c⟩

end Stuck

namespace Still

theorem pure {a : α} (h : P a) : Still s (Pure.pure a) P := fun _ => .inr ⟨a, h, rfl⟩

theorem throw (e : SessionError) : Still s (MonadExcept.throw e : Operation α) P :=
  fun _ => .inl ⟨e, rfl⟩

theorem throw_bind (e : SessionError) (f : α → Operation β) :
    Still s ((MonadExcept.throw e : Operation α) >>= f) Q :=
  fun _ => .inl ⟨e, rfl⟩

theorem get : Still s (MonadState.get : Operation Session) fun s' =>
    s'.table = s.table ∧ s'.config = s.config :=
  fun c => .inr ⟨s.over c, ⟨rfl, rfl⟩, rfl⟩

theorem ofExcept {ε : Type} (wrap : ε → SessionError) (r : Except ε α) :
    Still s (Operation.ofExcept wrap r) fun _ => True := by
  intro c
  cases r with
  | error e => exact .inl ⟨wrap e, rfl⟩
  | ok a => exact .inr ⟨a, trivial, rfl⟩

theorem bind {x : Operation α} {f : α → Operation β} (hx : Still s x P)
    (hf : ∀ a, P a → Still s (f a) Q) : Still s (x >>= f) Q := by
  intro c
  rcases hx c with ⟨e, he⟩ | ⟨a, ha, hrun⟩
  · exact .inl ⟨e, bind_error he⟩
  · rw [bind_ok hrun]
    exact hf a ha c

theorem bind_stuck {x : Operation α} {f : α → Operation β} (hx : Still s x P)
    (hf : ∀ a, P a → Stuck s (f a)) : Stuck s (x >>= f) := by
  intro c
  rcases hx c with ⟨e, he⟩ | ⟨a, ha, hrun⟩
  · exact ⟨e, bind_error he⟩
  · rw [bind_ok hrun]
    exact hf a ha c

theorem bind_clean (hfar : ∀ c, far c c) {x : Operation α} {f : α → Operation β} (hx : Still s x P)
    (hf : ∀ a, P a → Clean s far (f a)) : Clean s far (x >>= f) := by
  intro c e
  rcases hx c with ⟨e', he⟩ | ⟨a, ha, hrun⟩
  · rw [bind_error he]
    exact fun _ => ⟨c, rfl, fun _ => hfar c⟩
  · rw [bind_ok hrun]
    exact hf a ha c e

theorem clean (hfar : ∀ c, far c c) {x : Operation α} (hx : Still s x P) : Clean s far x := by
  intro c e _
  rcases hx c with ⟨e', hrun⟩ | ⟨a, -, hrun⟩ <;>
  · rw [hrun]
    exact ⟨c, rfl, fun _ => hfar c⟩

end Still

namespace Sure

theorem pure {a : α} (h : P a) : Sure s (Pure.pure a) P := fun c => .inr ⟨a, c, h, rfl⟩

theorem throw {e : SessionError} (h : e.isConfig = false) :
    Sure s (MonadExcept.throw e : Operation α) P :=
  fun c => .inl ⟨e, c, h, rfl⟩

theorem throw_bind {e : SessionError} (h : e.isConfig = false) (f : α → Operation β) :
    Sure s ((MonadExcept.throw e : Operation α) >>= f) Q :=
  fun c => .inl ⟨e, c, h, rfl⟩

theorem get : Sure s (MonadState.get : Operation Session) fun s' =>
    s'.table = s.table ∧ s'.config = s.config :=
  fun c => .inr ⟨s.over c, c, ⟨rfl, rfl⟩, rfl⟩

theorem ofExcept {ε : Type} {wrap : ε → SessionError} {r : Except ε α}
    (h : ∀ e, r = .error e → (wrap e).isConfig = false) :
    Sure s (Operation.ofExcept wrap r) fun _ => True := by
  intro c
  cases r with
  | error e => exact .inl ⟨wrap e, c, h e rfl, rfl⟩
  | ok a => exact .inr ⟨a, c, trivial, rfl⟩

theorem exchange {ε : Type} {wrap : ε → SessionError} (x : Exchange ε α)
    (h : ∀ e, (wrap e).isConfig = false) :
    Sure s (Operation.exchange wrap x) fun _ => True := by
  intro c
  have hrun : Operation.exchange wrap x (s.over c) = ((x c).1.mapError wrap, s.over (x c).2) := rfl
  rw [hrun]
  cases (x c).1 with
  | error e => exact .inl ⟨wrap e, _, h e, rfl⟩
  | ok a => exact .inr ⟨a, _, trivial, rfl⟩

theorem bind {x : Operation α} {f : α → Operation β} (hx : Sure s x P)
    (hf : ∀ a, P a → Sure s (f a) Q) : Sure s (x >>= f) Q := by
  intro c
  rcases hx c with ⟨e, d, hfault, he⟩ | ⟨a, d, ha, hrun⟩
  · exact .inl ⟨e, d, hfault, bind_error he⟩
  · rw [bind_ok hrun]
    exact hf a ha d

theorem mapM {f : α → Operation β} (h : ∀ a, Sure s (f a) fun _ => True) (as : List α) :
    Sure s (as.mapM f) fun _ => True := by
  induction as with
  | nil => exact pure trivial
  | cons a as ih =>
    rw [List.mapM_cons]
    exact (h a).bind fun _ _ => ih.bind fun _ _ => pure trivial

theorem clean {x : Operation α} (hx : Sure s x P) : Clean s nowhere x := by
  intro c e he
  rcases hx c with ⟨e', d, hfault, hrun⟩ | ⟨a, d, -, hrun⟩
  · rw [hrun] at he ⊢
    cases he
    refine ⟨d, rfl, fun hconfig => ?_⟩
    rw [hfault] at hconfig
    cases hconfig
  · rw [hrun] at he
    cases he

theorem bind_clean {x : Operation α} {f : α → Operation β} (hx : Sure s x P)
    (hf : ∀ a, P a → Clean s nowhere (f a)) : Clean s nowhere (x >>= f) := by
  intro c e
  rcases hx c with ⟨e', d, hfault, hrun⟩ | ⟨a, d, ha, hrun⟩
  · rw [bind_error hrun]
    rintro ⟨⟩
    refine ⟨d, rfl, fun hconfig => ?_⟩
    rw [hfault] at hconfig
    cases hconfig
  · rw [bind_ok hrun]
    intro he
    obtain ⟨d', hstate, hnowhere⟩ := hf a ha d e he
    exact ⟨d', hstate, hnowhere⟩

end Sure

namespace Clean

/-- What does not fail fails cleanly. -/
theorem of_ok {x : Operation α} (h : ∀ c, ∃ a, (x (s.over c)).1 = .ok a) : Clean s nowhere x := by
  intro c e he
  obtain ⟨a, ha⟩ := h c
  rw [ha] at he
  cases he

theorem of_nowhere {x : Operation α} (h : Clean s nowhere x) : Clean s far x := by
  intro c e he
  obtain ⟨d, hstate, hnowhere⟩ := h c e he
  exact ⟨d, hstate, fun hconfig => (hnowhere hconfig).elim⟩

theorem ite {p : Prop} [Decidable p] {x y : Operation α} (hx : p → Clean s far x)
    (hy : ¬ p → Clean s far y) : Clean s far (if p then x else y) := by
  split
  · exact hx ‹_›
  · exact hy ‹_›

theorem throw_bind (hfar : ∀ c, far c c) (e : SessionError) (f : α → Operation β) :
    Clean s far ((MonadExcept.throw e : Operation α) >>= f) :=
  ((Stuck.throw e).bind f).clean hfar

/-- What an operation gives back does not matter here. -/
theorem bind_pure {x : Operation α} (h : Clean s far x) (g : α → β) :
    Clean s far (x >>= fun a => Pure.pure (g a)) := by
  intro c e
  have hx := h c e
  rw [bind_apply]
  rcases hrun : x (s.over c) with ⟨r, s'⟩
  rw [hrun] at hx
  cases r with
  | error e' => simpa using hx
  | ok a => rintro ⟨⟩

end Clean

namespace Decided

theorem clean (hfar : ∀ c, far c c) {x : Operation α} (hx : Decided s x) : Clean s far x := by
  rcases hx with hstuck | hsure
  · exact hstuck.clean hfar
  · exact hsure.clean.of_nowhere

theorem bind_clean (hfar : ∀ c, far c c) {x : Operation α} {f : α → Operation β} (hx : Decided s x)
    (hf : ∀ a, Clean s nowhere (f a)) : Clean s far (x >>= f) := by
  -- a first part that is stuck has sent nothing; after one that is sure no reason is left
  rcases hx with hstuck | hsure
  · exact (hstuck.bind f).clean hfar
  · exact (hsure.bind_clean fun a _ => hf a).of_nowhere

end Decided

end Operation

/-! ### Objects of the caller -/

namespace OperationOn

/-- The same as `Operation.Sure`, whatever the object is and what becomes of it. -/
def Sure (s : Session) (x : OperationOn ω α) : Prop := ∀ b, Operation.Sure s (x.given b) fun _ => True

def Stuck (s : Session) (b : ω) (x : OperationOn ω α) : Prop :=
  ∀ c, ∃ e, x b (s.over c) = ((.error e, b), s.over c)

/-- An error of configuration has left the object alone. -/
def Clean (s : Session) (b : ω) (x : OperationOn ω α) : Prop :=
  ∀ c e, (x b (s.over c)).1.1 = .error e →
    ∃ d, (x b (s.over c)).2 = s.over d
      ∧ (e.isConfig = true → (x b (s.over c)).1.2 = b ∧ Connection.Looked c d)

/-- Every error has. -/
def Steady (b : ω) (x : OperationOn ω α) : Prop :=
  ∀ s e, (x b s).1.1 = .error e → (x b s).1.2 = b

variable {s : Session} {b : ω} {P : α → Prop}

namespace Sure

theorem pure (a : α) : Sure s (Pure.pure a : OperationOn ω α) := fun _ => Operation.Sure.pure trivial

theorem on {x : Operation α} (h : Operation.Sure s x P) : Sure s (x.on : OperationOn ω α) := by
  intro b c
  rcases h c with ⟨e, d, hfault, hrun⟩ | ⟨a, d, -, hrun⟩
  · exact .inl ⟨e, d, hfault, hrun⟩
  · exact .inr ⟨a, d, trivial, hrun⟩

theorem given_bind {x : OperationOn ω α} {f : α → OperationOn ω β}
    (hx : Operation.Sure s (x.given b) fun _ => True) (hf : ∀ a, Sure s (f a)) :
    Operation.Sure s ((x >>= f).given b) fun _ => True := by
  intro c
  rw [OperationOn.given_bind]
  rcases hrun : x b (s.over c) with ⟨⟨r, b'⟩, s'⟩
  have hgiven : x.given b (s.over c) = (r, s') := by rw [given, hrun]
  rcases hx c with ⟨e, d, hfault, he⟩ | ⟨a, d, -, ha⟩
  · cases hgiven.symm.trans he
    exact .inl ⟨e, d, hfault, rfl⟩
  · cases hgiven.symm.trans ha
    exact hf a b' d

theorem bind {x : OperationOn ω α} {f : α → OperationOn ω β} (hx : Sure s x)
    (hf : ∀ a, Sure s (f a)) : Sure s (x >>= f) :=
  fun b => given_bind (hx b) hf

end Sure

namespace Stuck

theorem on {x : Operation α} (h : Operation.Stuck s x) : Stuck s b (x.on : OperationOn ω α) := by
  intro c
  obtain ⟨e, he⟩ := h c
  exact ⟨e, by rw [Operation.on, he]⟩

theorem bind {x : OperationOn ω α} (hx : Stuck s b x) (f : α → OperationOn ω β) :
    Stuck s b (x >>= f) := by
  intro c
  obtain ⟨e, he⟩ := hx c
  exact ⟨e, by rw [bind_apply, he]⟩

theorem given {x : OperationOn ω α} (h : Stuck s b x) : Operation.Stuck s (x.given b) := by
  intro c
  obtain ⟨e, he⟩ := h c
  exact ⟨e, by rw [OperationOn.given, he]⟩

end Stuck

namespace Clean

theorem of_stuck {x : OperationOn ω α} (h : Stuck s b x) : Clean s b x := by
  intro c e _
  obtain ⟨e', he⟩ := h c
  rw [he]
  exact ⟨c, rfl, fun _ => ⟨rfl, .inl rfl⟩⟩

theorem of_sure {x : OperationOn ω α} (h : Operation.Sure s (x.given b) P) : Clean s b x := by
  intro c e he
  obtain ⟨d, hstate, hnowhere⟩ := h.clean c e he
  exact ⟨d, hstate, fun hconfig => (hnowhere hconfig).elim⟩

theorem alone {x : Operation α} (h : Operation.Clean s Connection.Looked x) (b : Unit) :
    Clean s b x.alone := by
  intro c e he
  obtain ⟨hx, hrun⟩ := Operation.alone_error he
  obtain ⟨d, hstate, hlooked⟩ := h c e hx
  rw [hrun]
  exact ⟨d, hstate, fun hconfig => ⟨rfl, hlooked hconfig⟩⟩

theorem inPlace {x : ω → Operation ω} (h : Operation.Clean s Connection.Looked (x b)) :
    Clean s b (Operation.inPlace x) := by
  intro c e he
  obtain ⟨hx, hrun⟩ := Operation.inPlace_error he
  obtain ⟨d, hstate, hlooked⟩ := h c e hx
  rw [hrun]
  exact ⟨d, hstate, fun hconfig => ⟨rfl, hlooked hconfig⟩⟩

theorem bind_pure {x : OperationOn ω α} (h : Clean s b x) (g : α → β) :
    Clean s b (x >>= fun a => Pure.pure (g a)) := by
  intro c e
  have hx := h c e
  rw [bind_apply]
  rcases hrun : x b (s.over c) with ⟨⟨r, b'⟩, s'⟩
  rw [hrun] at hx
  cases r with
  | error e' => simpa using hx
  | ok a => rintro ⟨⟩

theorem on_bind {x : Operation α} {f : α → OperationOn ω β} (hx : Operation.Still s x P)
    (hf : ∀ a, P a → Clean s b (f a)) : Clean s b (x.on >>= f) := by
  intro c e
  rw [bind_apply, Operation.on]
  rcases hx c with ⟨e', hrun⟩ | ⟨a, ha, hrun⟩
  · rw [hrun]
    exact fun _ => ⟨c, rfl, fun _ => ⟨rfl, .inl rfl⟩⟩
  · rw [hrun]
    exact hf a ha c e

end Clean

namespace Steady

theorem alone (x : Operation α) (b : Unit) : Steady b x.alone := by
  intro s e he
  rw [(Operation.alone_error he).2]

theorem inPlace (x : ω → Operation ω) (b : ω) : Steady b (Operation.inPlace x) := by
  intro s e he
  rw [(Operation.inPlace_error he).2]

theorem on_bind (x : Operation α) {f : α → OperationOn ω β} (hf : ∀ a, Steady b (f a)) :
    Steady b (x.on >>= f) := by
  intro s e
  rw [bind_apply, Operation.on]
  rcases x s with ⟨r, s'⟩
  cases r with
  | error e' => exact fun _ => rfl
  | ok a => exact hf a s' e

theorem bind_pure {x : OperationOn ω α} (h : Steady b x) (g : α → β) :
    Steady b (x >>= fun a => Pure.pure (g a)) := by
  intro s e
  have hx := h s e
  rw [bind_apply]
  rcases hrun : x b s with ⟨⟨r, b'⟩, s'⟩
  rw [hrun] at hx
  cases r with
  | error e' => simpa using hx
  | ok a => rintro ⟨⟩

end Steady

end OperationOn

end Acme
