import Acme.Proofs.Connection.Conversation
import Acme.Session.Signing

/-!
# Rules for operations

What an operation says over the connection (`Operation.Does`): started with a table of accounts, it
converses with letters that are allowed, keeps the table, and what it gives back has a property.
There is one rule for every way in which operations are built, so that an operation is judged by
reading it. An operation that is done with the connection may change the table; `Operation.Speaks`
keeps the part about the connection alone.
-/

namespace Acme

variable {α β γ : Type}

open Stateful

namespace Operation

/-- From a table of accounts an operation converses as allowed, keeps the table, and gives back only
what has a property. -/
def Does (t : AccountTable) (allowed : Letter → Prop) (x : Operation α) (P : α → Prop) : Prop :=
  ∀ s : Session, s.table = t →
    s.connection.Converses allowed (x s).2.connection ∧ (x s).2.table = t
      ∧ ∀ a, (x s).1 = .ok a → P a

/-- From a table of accounts an operation converses as allowed. -/
def Speaks (t : AccountTable) (allowed : Letter → Prop) (x : Operation α) : Prop :=
  ∀ s : Session, s.table = t → s.connection.Converses allowed (x s).2.connection

/-- An operation leaves the connection alone. -/
def Silent (x : Operation α) : Prop := ∀ s : Session, (x s).2.connection = s.connection

variable {t : AccountTable} {allowed : Letter → Prop} {P : α → Prop} {Q : β → Prop}

/-! ### Keeping the table -/

namespace Does

theorem speaks {x : Operation α} (h : Does t allowed x P) : Speaks t allowed x :=
  fun s hs => (h s hs).1

theorem pure {a : α} (h : P a) : Does t allowed (Pure.pure a) P := by
  intro s hs
  refine ⟨.refl, hs, ?_⟩
  rintro b ⟨⟩
  exact h

theorem throw (e : SessionError) : Does t allowed (MonadExcept.throw e : Operation α) P := by
  intro s hs
  refine ⟨.refl, hs, ?_⟩
  rintro b ⟨⟩

theorem bind {x : Operation α} {f : α → Operation β} (hx : Does t allowed x P)
    (hf : ∀ a, P a → Does t allowed (f a) Q) : Does t allowed (x >>= f) Q := by
  intro s hs
  obtain ⟨hconnection, htable, hresult⟩ := hx s hs
  rw [bind_apply]
  rcases hrun : x s with ⟨r, s'⟩
  rw [hrun] at hconnection htable hresult
  cases r with
  | error e => exact ⟨hconnection, htable, fun b hb => by cases hb⟩
  | ok a =>
    obtain ⟨hconnection', htable', hresult'⟩ := hf a (hresult a rfl) s' htable
    exact ⟨hconnection.trans hconnection', htable', hresult'⟩

/-- What would come after an error does not matter. -/
theorem throw_bind (e : SessionError) (f : α → Operation β) :
    Does t allowed ((MonadExcept.throw e : Operation α) >>= f) Q :=
  (throw (P := fun _ => False) e).bind fun _ h => h.elim

theorem ite {p : Prop} [Decidable p] {x y : Operation α} (hx : p → Does t allowed x P)
    (hy : ¬ p → Does t allowed y P) : Does t allowed (if p then x else y) P := by
  split
  · exact hx ‹_›
  · exact hy ‹_›

theorem get : Does t allowed (MonadState.get : Operation Session) (·.table = t) := by
  intro s hs
  refine ⟨.refl, hs, ?_⟩
  rintro b ⟨⟩
  exact hs

theorem ofExcept {ε : Type} {wrap : ε → SessionError} {r : Except ε α} (h : ∀ a, r = .ok a → P a) :
    Does t allowed (Operation.ofExcept wrap r) P := by
  intro s hs
  refine ⟨.refl, hs, ?_⟩
  intro a ha
  cases r with
  | error e => cases ha
  | ok b =>
    cases ha
    exact h a rfl

/-- An exchange is judged by what it does to the connection. -/
theorem exchange {ε : Type} {wrap : ε → SessionError} {x : Exchange ε α}
    (h : ∀ c : Connection, c.Converses allowed (x c).2) (hP : ∀ c a, (x c).1 = .ok a → P a) :
    Does t allowed (Operation.exchange wrap x) P := by
  intro s hs
  refine ⟨h s.connection, hs, ?_⟩
  intro a ha
  change (x s.connection).1.mapError wrap = .ok a at ha
  cases hr : (x s.connection).1 with
  | error e =>
    rw [hr] at ha
    cases ha
  | ok b =>
    rw [hr] at ha
    cases ha
    exact hP _ _ hr

theorem mapM {f : α → Operation β} (h : ∀ a, Does t allowed (f a) fun _ => True) (as : List α) :
    Does t allowed (as.mapM f) fun _ => True := by
  induction as with
  | nil => exact pure trivial
  | cons a as ih =>
    rw [List.mapM_cons]
    exact (h a).bind fun _ _ => ih.bind fun _ _ => pure trivial

end Does

/-! ### Leaving the connection alone -/

namespace Silent

theorem pure (a : α) : Silent (Pure.pure a : Operation α) := fun _ => rfl

theorem throw (e : SessionError) : Silent (MonadExcept.throw e : Operation α) := fun _ => rfl

theorem get : Silent (MonadState.get : Operation Session) := fun _ => rfl

theorem modifyTable (change : AccountTable → AccountTable) : Silent (Session.modifyTable change) :=
  fun _ => rfl

theorem bind {x : Operation α} {f : α → Operation β} (hx : Silent x) (hf : ∀ a, Silent (f a)) :
    Silent (x >>= f) := by
  intro s
  have hconnection := hx s
  rw [bind_apply]
  rcases hrun : x s with ⟨r, s'⟩
  rw [hrun] at hconnection
  cases r with
  | error e => exact hconnection
  | ok a => exact (hf a s').trans hconnection

theorem speaks {x : Operation α} (h : Silent x) : Speaks t allowed x := by
  intro s _
  rw [h s]
  exact .refl

end Silent

theorem Speaks.bind {x : Operation α} {f : α → Operation β} (hx : Does t allowed x P)
    (hf : ∀ a, P a → Speaks t allowed (f a)) : Speaks t allowed (x >>= f) := by
  intro s hs
  obtain ⟨hconnection, htable, hresult⟩ := hx s hs
  rw [bind_apply]
  rcases hrun : x s with ⟨r, s'⟩
  rw [hrun] at hconnection htable hresult
  cases r with
  | error e => exact hconnection
  | ok a => exact hconnection.trans (hf a (hresult a rfl) s' htable)

/-- What comes after the last request may change the table. -/
theorem Speaks.bind_silent {x : Operation α} {f : α → Operation β} (hx : Does t allowed x P)
    (hf : ∀ a, Silent (f a)) : Speaks t allowed (x >>= f) :=
  Speaks.bind hx fun a _ => (hf a).speaks

end Operation

/-! ### Objects of the caller -/

namespace OperationOn

variable {ω : Type} (b : ω) (s : Session)

theorem bind_apply (x : OperationOn ω α) (f : α → OperationOn ω β) :
    (x >>= f) b s =
      match x b s with
      | ((.ok a, b'), s') => f a b' s'
      | ((.error e, b'), s') => ((.error e, b'), s') := by
  show (match x b s with | ((r, b'), s') => ExceptT.bindCont f r b' s') = _
  obtain ⟨⟨r, b'⟩, s'⟩ := x b s
  cases r <;> rfl

theorem given_bind (x : OperationOn ω α) (f : α → OperationOn ω β) :
    (x >>= f).given b s =
      match x b s with
      | ((.ok a, b'), s') => (f a).given b' s'
      | ((.error e, _), s') => (.error e, s') := by
  unfold given
  rw [bind_apply]
  obtain ⟨⟨r, b'⟩, s'⟩ := x b s
  cases r <;> rfl

/-- The same as `Operation.Does`, whatever the object is and what becomes of it. -/
def Does (t : AccountTable) (allowed : Letter → Prop) (x : OperationOn ω α) : Prop :=
  ∀ b, Operation.Does t allowed (x.given b) fun _ => True

namespace Does

variable {t : AccountTable} {allowed : Letter → Prop}

theorem pure (a : α) : Does t allowed (Pure.pure a : OperationOn ω α) :=
  fun _ => Operation.Does.pure trivial

theorem on {x : Operation α} (h : Operation.Does t allowed x fun _ => True) :
    Does t allowed (x.on : OperationOn ω α) :=
  fun _ => h

theorem bind {x : OperationOn ω α} {f : α → OperationOn ω β} (hx : Does t allowed x)
    (hf : ∀ a, Does t allowed (f a)) : Does t allowed (x >>= f) := by
  intro b s hs
  obtain ⟨hconnection, htable, -⟩ := hx b s hs
  unfold given at hconnection htable
  rw [given_bind]
  rcases hrun : x b s with ⟨⟨r, b'⟩, s'⟩
  rw [hrun] at hconnection htable
  cases r with
  | error e => exact ⟨hconnection, htable, fun _ _ => trivial⟩
  | ok a =>
    obtain ⟨hconnection', htable', -⟩ := hf a b' s' htable
    exact ⟨hconnection.trans hconnection', htable', fun _ _ => trivial⟩

end Does

end OperationOn

/-! ### Polling -/

/-- Polling has every property that its fetches and waits have, if the property is kept by doing one
thing after another. -/
theorem PollPolicy.run_of_closed {m : Type → Type} [Monad m] (good : ∀ {α : Type}, m α → Prop)
    (hpure : ∀ {α : Type} (a : α), good (pure a : m α))
    (hbind : ∀ {α β : Type} {x : m α} {f : α → m β}, good x → (∀ a, good (f a)) → good (x >>= f))
    {fetch : m String} {wait : Nat → m Bool} (hfetch : good fetch) (hwait : ∀ n, good (wait n))
    (p : PollPolicy) (target : String) : good (p.run target fetch wait) := by
  have hattempt (made more : Nat) : good (attempt target fetch wait made more) := by
    induction more generalizing made with
    | zero => exact hbind hfetch fun status => hpure _
    | succ more ih =>
      refine hbind hfetch fun status => ?_
      split
      · exact hpure _
      · refine hbind (hwait _) fun cancelled => ?_
        split
        · exact hpure _
        · exact ih _
  exact hattempt 0 _

/-- Polling begins with a fetch. -/
theorem PollPolicy.exists_run_eq {m : Type → Type} [Monad m] (p : PollPolicy) (target : String)
    (fetch : m String) (wait : Nat → m Bool) : ∃ f, p.run target fetch wait = fetch >>= f := by
  unfold run
  cases p.maxTries - 1 with
  | zero => exact ⟨_, rfl⟩
  | succ more => exact ⟨_, rfl⟩

end Acme
