/-!
# Polling

Waiting until a resource has a state, by fetching it again and again. There is a bound on the number
of times, and a wait between two of them, which can be cancelled. That the bound is reached is not an
error; only a fetch that fails ends in one.

`PollPolicy.run` works with any way to fetch and to wait.
-/

namespace Acme

/-- How often to fetch and how long to wait. -/
structure PollPolicy where
  /-- The greatest number of times; zero counts as one. -/
  maxTries : Nat
  /-- The length of a wait in milliseconds. -/
  interval : Nat
  deriving DecidableEq, Repr

/-- How polling ended. -/
inductive PollOutcome
  /-- The state was there. -/
  | matched (attempts : Nat)
  /-- The bound was reached. -/
  | exhausted (attempts : Nat) (lastStatus : String)
  /-- A wait was cancelled. -/
  | cancelled (attempts : Nat)
  deriving DecidableEq, Repr

namespace PollOutcome

/-- Whether the state was there. -/
def isMatched : PollOutcome → Bool
  | matched _ => true
  | exhausted .. | cancelled _ => false

/-- How often the state was fetched. -/
def attempts : PollOutcome → Nat
  | matched n | exhausted n _ | cancelled n => n

end PollOutcome

namespace PollPolicy

/-- Five times, five seconds apart. -/
def default : PollPolicy := { maxTries := 5, interval := 5000 }

variable {m : Type → Type} [Monad m]

/-- Fetches once more, after `made` times, and then up to `more` times. The wait after a fetch says
whether it was cancelled. -/
def attempt (target : String) (fetch : m String) (wait : Nat → m Bool) (made : Nat) :
    (more : Nat) → m PollOutcome
  | 0 => do
    let status ← fetch
    return if status = target then .matched (made + 1) else .exhausted (made + 1) status
  | more + 1 => do
    let status ← fetch
    if status = target then return .matched (made + 1)
    if ← wait (made + 1) then return .cancelled (made + 1)
    attempt target fetch wait (made + 1) more

/-- Fetches until the state is the target. -/
def run (p : PollPolicy) (target : String) (fetch : m String) (wait : Nat → m Bool) :
    m PollOutcome :=
  attempt target fetch wait 0 (p.maxTries - 1)

end PollPolicy

end Acme
