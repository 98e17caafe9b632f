import Acme.Session.Orders

/-!
# Polling in sessions

Fetching a URL or a resource again and again until it has a state. Whether the wait after a fetch is
cancelled comes from outside and is given for every number of fetches.
-/

namespace Acme.Session

/-- The state of the resource that an answer describes; all else that it says is passed over. -/
def statusOf (answer : Http.Response) : Operation String :=
  match (do (← (← answer.node?).record? ["status"]).required "status" Json.Node.text?) with
  | some status => return status
  | none => throw .json

/-- Fetches a URL until what is there has a state. -/
def pollUntil (url target : String) (policy : Option PollPolicy) (cancelled : Nat → Bool) :
    Operation PollOutcome := do
  let policy := policy.getD (← get).config.poll
  policy.run target (do statusOf (← fetch url)) fun n => return cancelled n

/-- Fetches a resource until it has a state. The resource is replaced after every fetch. -/
def pollResource {R : Type} [Resource R] (target : String) (policy : Option PollPolicy)
    (cancelled : Nat → Bool) : OperationOn R PollOutcome := do
  let s : Session ← getThe Session
  let fetched : OperationOn R String := do
    let r ← (update (← getThe R)).on
    set r
    return Resource.status r
  (policy.getD s.config.poll).run target fetched fun n => return cancelled n

end Acme.Session
