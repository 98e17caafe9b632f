import Acme.Polling
import Acme.Proofs.Stateful
import Mathlib.Order.Bounds.Basic

/-!
# How often is fetched

Polling among all that may happen around it: how every fetch ends, and from when on the token that ends
waiting is cancelled (`Course`). What polling does is written down as a list of events.

It is a search with a bound. It stops at the least number of fetches at which there is a reason to stop
(`Course.Stops`), and the first reason that holds decides how it ends (`Course.Ends`). The loop is taken
round by round (`Course.attempt_halts`): what carries the induction is that the log before a fetch consists of
full rounds.
-/

namespace Acme.PollPolicy

open Stateful

/-! ### What happens around polling -/

/-- How fetches end, and when the token is cancelled; where there is no token it is never cancelled.
Moments are numbered: 0 is the moment before polling, `2 * n - 1` the end of the `n`-th fetch, and `2 * n`
the end of the wait after it. -/
structure Course (ε : Type) where
  fetched : Nat → Except ε String
  cancelled : Nat → Bool
  /-- A token that is cancelled stays so. -/
  lasting : Monotone cancelled

/-- What polling does. -/
inductive Event
  /-- The resource is fetched for the `n`-th time. -/
  | fetch (n : Nat)
  /-- The wait after the `n`-th fetch passes to its end. -/
  | wait (n : Nat)
  /-- The wait after the `n`-th fetch is ended by the token. -/
  | interruption (n : Nat)
  deriving DecidableEq, Repr

namespace Event

def isFetch : Event → Bool
  | fetch _ => true
  | wait _ | interruption _ => false

def isWait : Event → Bool
  | wait _ => true
  | fetch _ | interruption _ => false

end Event

/-- How often has been fetched. -/
def fetches (log : List Event) : Nat := log.countP Event.isFetch

/-- How many waits have passed to their end. -/
def waits (log : List Event) : Nat := log.countP Event.isWait

namespace Course

variable {ε : Type} (w : Course ε)

def fetch : ExceptT ε (StateM (List Event)) String :=
  fun log => (w.fetched (fetches log + 1), log ++ [.fetch (fetches log + 1)])

/-- A wait ends early if the token is cancelled, before it or meanwhile. -/
def wait : ExceptT ε (StateM (List Event)) Bool :=
  fun log =>
    if w.cancelled (2 * fetches log) then (.ok true, log ++ [.interruption (fetches log)])
    else (.ok false, log ++ [.wait (fetches log)])

/-- Polling in the course of things. -/
def poll (p : PollPolicy) (target : String) : Except ε PollOutcome × List Event :=
  p.run target w.fetch (fun _ => w.wait) []

variable (target : String) (bound : Nat)

/-- Whether there is a reason to stop after the `n`-th fetch. -/
def Stops (n : Nat) : Prop :=
  (∃ e, w.fetched n = .error e) ∨ w.fetched n = .ok target
    ∨ (n < bound ∧ w.cancelled (2 * n)) ∨ n = bound

/-- How polling ends that stops after the `n`-th fetch. -/
inductive Ends (n : Nat) : Except ε PollOutcome → Prop
  | failed {e : ε} (h : w.fetched n = .error e) : Ends n (.error e)
  | matched (h : w.fetched n = .ok target) : Ends n (.ok (.matched n))
  | cancelled {status : String} (h : w.fetched n = .ok status) (hother : status ≠ target)
    (hn : n < bound) (hcancelled : w.cancelled (2 * n)) : Ends n (.ok (.cancelled n))
  | exhausted {status : String} (h : w.fetched n = .ok status) (hother : status ≠ target)
    (hn : n = bound) : Ends n (.ok (.exhausted bound status))

end Course

/-! ### Rounds -/

/-- What is done in a number of rounds, each a fetch and a full wait. -/
def rounds : Nat → List Event
  | 0 => []
  | n + 1 => rounds n ++ [.fetch (n + 1), .wait (n + 1)]

/-- What is done after the last fetch. -/
def closing : Except ε PollOutcome → List Event
  | .ok (.cancelled n) => [.interruption n]
  | .ok (.matched _) | .ok (.exhausted ..) | .error _ => []

@[simp] theorem fetches_append (log more : List Event) :
    fetches (log ++ more) = fetches log + fetches more := List.countP_append

@[simp] theorem waits_append (log more : List Event) : waits (log ++ more) = waits log + waits more :=
  List.countP_append

@[simp] theorem fetches_rounds (n : Nat) : fetches (rounds n) = n := by
  induction n with
  | zero => rfl
  | succ n ih =>
    rw [rounds, fetches_append, ih]
    rfl

@[simp] theorem waits_rounds (n : Nat) : waits (rounds n) = n := by
  induction n with
  | zero => rfl
  | succ n ih =>
    rw [rounds, waits_append, ih]
    rfl

/-- What is done until polling stops after the `n`-th fetch. -/
def course {ε : Type} (n : Nat) (outcome : Except ε PollOutcome) : List Event :=
  rounds (n - 1) ++ .fetch n :: closing outcome

theorem rounds_succ (n : Nat) : rounds n ++ [.fetch (n + 1)] ++ [.wait (n + 1)] = rounds (n + 1) := by
  rw [rounds, List.append_assoc]
  rfl

namespace Course

variable {ε : Type} (w : Course ε) (target : String) {bound made k : Nat}

theorem fetch_rounds (made : Nat) :
    w.fetch (rounds made) = (w.fetched (made + 1), rounds made ++ [.fetch (made + 1)]) := by
  rw [fetch, fetches_rounds]

theorem wait_rounds (made : Nat) :
    w.wait (rounds made ++ [.fetch (made + 1)]) =
      if w.cancelled (2 * (made + 1)) then
        (.ok true, rounds made ++ [.fetch (made + 1)] ++ [.interruption (made + 1)])
      else (.ok false, rounds (made + 1)) := by
  have hfetches : fetches (rounds made ++ [.fetch (made + 1)]) = made + 1 := by
    rw [fetches_append, fetches_rounds]
    rfl
  rw [wait, hfetches, rounds_succ]

/-! ### The least number of fetches -/

/-- Polling, after some fetches before, stops after the `k`-th fetch. -/
def Halts (bound made : Nat) (result : Except ε PollOutcome × List Event) (k : Nat) : Prop :=
  IsLeast {n | made < n ∧ w.Stops target bound n} k ∧ w.Ends target bound k result.1
    ∧ result.2 = course k result.1

variable {w target} {outcome : Except ε PollOutcome}

namespace Ends

theorem stops (h : w.Ends target bound k outcome) : w.Stops target bound k := by
  cases h with
  | failed h => exact .inl ⟨_, h⟩
  | matched h => exact .inr (.inl h)
  | cancelled _ _ hn hcancelled => exact .inr (.inr (.inl ⟨hn, hcancelled⟩))
  | exhausted _ _ hn => exact .inr (.inr (.inr hn))

theorem attempts (h : w.Ends target bound k outcome) {ended : PollOutcome}
    (hended : outcome = .ok ended) : ended.attempts = k := by
  cases h with
  | failed h => cases hended
  | matched h => cases hended; rfl
  | cancelled _ _ _ _ => cases hended; rfl
  | exhausted _ _ hn => cases hended; exact hn.symm

/-- The next fetch is the last one. -/
theorem halts (h : w.Ends target bound (made + 1) outcome) :
    w.Halts target bound made (outcome, course (made + 1) outcome) (made + 1) :=
  ⟨⟨⟨made.lt_succ_self, h.stops⟩, fun _ hn => hn.1⟩, h, rfl⟩

end Ends

theorem Halts.later {result : Except ε PollOutcome × List Event}
    (h : w.Halts target bound (made + 1) result k) (hgoes : ¬ w.Stops target bound (made + 1)) :
    w.Halts target bound made result k := by
  obtain ⟨⟨⟨hk, hstops⟩, hleast⟩, hended⟩ := h
  refine ⟨⟨⟨Nat.lt_of_succ_lt hk, hstops⟩, fun n hn => ?_⟩, hended⟩
  apply hleast
  have hne : made + 1 ≠ n := by
    rintro rfl
    exact hgoes hn.2
  exact ⟨Nat.lt_of_le_of_ne hn.1 hne, hn.2⟩

/-- Where there is no reason to stop, a round is done and polling goes on. -/
theorem not_stops {status : String} (h : w.fetched k = .ok status) (hother : status ≠ target)
    (hn : k < bound) (hgoes : ¬ w.cancelled (2 * k)) : ¬ w.Stops target bound k := by
  rintro (⟨e, he⟩ | hmatched | ⟨-, hcancelled⟩ | rfl)
  · rw [h] at he
    cases he
  · rw [h] at hmatched
    cases hmatched
    exact hother rfl
  · exact hgoes hcancelled
  · exact Nat.lt_irrefl _ hn

variable (w target)

theorem attempt_halts (made more : Nat) :
    ∃ k, w.Halts target (made + more + 1) made
      (attempt target w.fetch (fun _ => w.wait) made more (rounds made)) k := by
  induction more generalizing made with
  | zero =>
    refine ⟨made + 1, ?_⟩
    rw [attempt, bind_apply, fetch_rounds]
    cases hfetched : w.fetched (made + 1) with
    | error e => exact (Ends.failed hfetched).halts
    | ok status =>
      by_cases hstatus : status = target
      · subst hstatus
        simp only [if_true]
        exact (Ends.matched hfetched).halts
      · simp only [if_neg hstatus]
        exact (Ends.exhausted hfetched hstatus rfl).halts
  | succ more ih =>
    rw [attempt, bind_apply, fetch_rounds]
    cases hfetched : w.fetched (made + 1) with
    | error e => exact ⟨made + 1, (Ends.failed hfetched).halts⟩
    | ok status =>
      by_cases hstatus : status = target
      · subst hstatus
        simp only [if_true]
        exact ⟨made + 1, (Ends.matched hfetched).halts⟩
      · have hn : made + 1 < made + (more + 1) + 1 := by omega
        simp only [if_neg hstatus]
        rw [bind_apply, wait_rounds]
        -- this round does not stop, so the first that stops is a later one
        by_cases hcancelled : w.cancelled (2 * (made + 1))
        · rw [if_pos hcancelled]
          refine ⟨made + 1, ?_⟩
          have := (Ends.cancelled hfetched hstatus hn hcancelled).halts
          simpa [course, closing, pure_apply] using this
        · rw [if_neg hcancelled]
          obtain ⟨k, hk⟩ := ih (made + 1)
          rw [Nat.add_right_comm made 1 more] at hk
          exact ⟨k, Halts.later hk (not_stops hfetched hstatus hn hcancelled)⟩

/-! ### Polling as a search -/

variable {w target}

theorem waits_course {n : Nat} (hn : 1 ≤ n) (outcome : Except ε PollOutcome) :
    waits (course n outcome) + 1 = n := by
  have hclosing : waits (.fetch n :: closing outcome) = 0 := by
    rcases outcome with e | (_ | _ | _) <;> rfl
  rw [course, waits_append, waits_rounds, hclosing]
  omega

theorem fetches_course {n : Nat} (hn : 1 ≤ n) (outcome : Except ε PollOutcome) :
    fetches (course n outcome) = n := by
  have hclosing : fetches (.fetch n :: closing outcome) = 1 := by
    rcases outcome with e | (_ | _ | _) <;> rfl
  rw [course, fetches_append, fetches_rounds, hclosing]
  omega

/-- What polling comes to, and what it has done, where it stops after the `k`-th fetch. -/
structure Searched (w : Course ε) (target : String) (bound : Nat)
    (result : Except ε PollOutcome × List Event) (k : Nat) : Prop where
  /-- It stops as soon as there is a reason to. -/
  least : IsLeast {n | 1 ≤ n ∧ w.Stops target bound n} k
  bounded : k ≤ bound
  ends : w.Ends target bound k result.1
  fetches_eq : fetches result.2 = k
  /-- A wait that is interrupted does not count. -/
  waits_eq : waits result.2 + 1 = k
  attempts_eq : ∀ ended, result.1 = .ok ended → ended.attempts = fetches result.2
  /-- The state that is looked for wins over the token, whenever that is cancelled. -/
  matched : w.fetched k = .ok target → result.1 = .ok (.matched k)
  /-- Nobody asks for the token after the last fetch. -/
  exhausted : k = bound → ∀ status, w.fetched k = .ok status → status ≠ target →
    result.1 = .ok (.exhausted bound status)
  /-- One fetch is made all the same if the token is cancelled beforehand. -/
  once : w.cancelled 0 → k = 1

/-- Whoever knows the reason to stop knows how polling ends. -/
theorem Ends.unique {outcome' : Except ε PollOutcome} (h : w.Ends target bound k outcome)
    (h' : w.Ends target bound k outcome') : outcome = outcome' := by
  cases h <;> cases h' <;> simp_all

theorem stops_of_cancelled (hbound : 1 ≤ bound) (h : w.cancelled 0) : w.Stops target bound 1 := by
  have hlasting : w.cancelled 0 ≤ w.cancelled (2 * 1) := w.lasting (Nat.zero_le _)
  have hcancelled : w.cancelled (2 * 1) := hlasting h
  rcases Nat.lt_or_eq_of_le hbound with hn | hn
  · exact .inr (.inr (.inl ⟨hn, hcancelled⟩))
  · exact .inr (.inr (.inr hn))

theorem Halts.searched {result : Except ε PollOutcome × List Event} (hbound : 1 ≤ bound)
    (h : w.Halts target bound 0 result k) : w.Searched target bound result k := by
  obtain ⟨hleast, hends, hlog⟩ := h
  have hk : 1 ≤ k := hleast.1.1
  have hfetches : fetches result.2 = k := by
    rw [hlog, fetches_course hk]
  exact {
    least := hleast
    bounded := hleast.2 ⟨hbound, .inr (.inr (.inr rfl))⟩
    ends := hends
    fetches_eq := hfetches
    waits_eq := by rw [hlog, waits_course hk]
    attempts_eq := fun ended hended => (hends.attempts hended).trans hfetches.symm
    matched := fun hfetched => hends.unique (.matched hfetched)
    exhausted := fun hlast status hfetched hother =>
      hends.unique (.exhausted hfetched hother hlast)
    once := fun hcancelled =>
      Nat.le_antisymm (hleast.2 ⟨Nat.le_refl 1, stops_of_cancelled hbound hcancelled⟩) hk }

end Course

/-- Polling, in any course of things, is a search for the first reason to stop. -/
theorem poll_searched {ε : Type} (p : PollPolicy) (target : String) (w : Course ε) :
    ∃ k, w.Searched target (max 1 p.maxTries) (w.poll p target) k := by
  have hbound : 0 + (p.maxTries - 1) + 1 = max 1 p.maxTries := by omega
  obtain ⟨k, hk⟩ := w.attempt_halts target 0 (p.maxTries - 1)
  rw [hbound] at hk
  exact ⟨k, hk.searched (Nat.le_max_left ..)⟩

/-- A token that is cancelled while the last of two fetches is under way does not end polling. -/
example : (Course.mk (fun _ => (.ok "pending" : Except Unit String)) (fun n => decide (3 ≤ n))
      (fun _ _ h h' => decide_eq_true (Nat.le_trans (of_decide_eq_true h') h))).poll ⟨2, 0⟩ "valid"
    = (.ok (.exhausted 2 "pending"), [.fetch 1, .wait 1, .fetch 2]) := by
  decide

end Acme.PollPolicy
