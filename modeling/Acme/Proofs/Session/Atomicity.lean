import Acme.Proofs.Session.Effects
import Acme.Proofs.Session.Faults

/-!
# Failing without a trace

A call that fails has changed neither the accounts nor the caller's object, wherever in the call it
failed (`Call.failed_unchanged`). There is one exception: when the server has made an order, its URL is
recorded before the body of the answer is read, and stays if the body cannot be read
(`Session.OrderKept`).
-/

namespace Acme

variable {β : Type}

namespace Session

/-- The server has made an order, but what it says about the order cannot be read. The location of the
order has been added to those of one account that has the active account's identifier; no other
account, and nothing else, has changed in the table. -/
def OrderKept (s s' : Session) : Prop :=
  ∃ a q r held location index b,
    s.table.active? = some a
      ∧ Answered s Endpoint.newOrder.name s'.connection q (.ok r) held
      ∧ r.status = .created ∧ r.location? = some location
      ∧ (Resource.ofBody? location r.body : Option Order) = none
      ∧ s.table.accounts[index]? = some b ∧ b.id = a.id
      ∧ s'.table = s.table.modify index fun b => { b with orders := b.orders ++ [location] }

theorem createOrder_failed {o : Order} {s : Session} {e : SessionError}
    (h : (createOrder o s).1 = .error e) :
    (createOrder o s).2.table = s.table ∨ OrderKept s (createOrder o s).2 := by
  rcases createOrder_run s o with ⟨e', c, hrun, -⟩ | ⟨a, url, looked, n, drawn, m, ha, hresolve, hdraw,
    hposts, -, hrun⟩
  · left
    rw [hrun]
  -- the table is not touched before the answer is there; then the order is recorded first
  obtain ⟨hanswered, -⟩ := send_answered hresolve hdraw hposts (recordOrder_silent a) hrun
  rcases send_bind_cases { s with connection := drawn } url m.serialized .created (recordOrder a)
    with ⟨e', hsent⟩ | ⟨r, hanswer, hstatus, hsent⟩
  · left
    rw [hrun, hsent]
  · have hrecord := hrun.trans hsent
    rw [hrecord] at h
    rcases recordOrder_failed h with ⟨-, hsame⟩ | ⟨-, location, hlocation, hbody, htable⟩
    · left
      rw [hrecord, hsame]
    · right
      obtain ⟨index, b, hindex, hid, hrecorded⟩ :=
        AccountTable.recordOrder_of_mem (AccountTable.active?_mem ha) location
      rw [hanswer] at hanswered
      refine ⟨a, _, r, _, location, index, b, ha, hanswered, hstatus, hlocation, hbody, hindex, hid, ?_⟩
      rw [hrecord, htable]
      exact hrecorded

end Session

namespace Call

open Session

/-- Whether a call changes the caller's object at the end only. A resource that is polled is replaced
after every fetch, and nonces that options bring are used up. -/
def steady : Call β → Bool
  | pollResource .. | sign .. | post .. => false
  | _ => true

theorem steady_run (call : Call β) (h : call.steady = true) (b : β) :
    OperationOn.Steady b call.run := by
  cases call with
  | createAccount | createOrder | update | respondChallenge | deactivateAuthorization
  | finalize given seed => exact .inPlace _ b
  | updateAccount contact | deactivateAccount | rollover k | fetchAuthorizations o
  | pollUntil url target policy cancelled | keyAuthorization token | download o
  | revoke certificate reason given | fetch url | postAsGet url | getAnonymously url | refreshNonce
  | endpoint name | refreshDirectory | termsOfService | addAccount a activate | setActiveAccount index
  | activeAccount | accounts | addKey name k | key name => exact .alone _ b
  | provision a c =>
    refine OperationOn.Steady.bind_pure (.on_bind _ fun value => .on_bind _ fun key => ?_) _
    rintro s e ⟨⟩
  | cleanUp a c =>
    refine .on_bind _ fun key => ?_
    rintro s e ⟨⟩
  | pollResource target policy cancelled | sign url payload | post url payload => cases h

/-- A call that fails has left the accounts and the caller's object as they were, unless it was to
create an order that the server has made, and has failed because it could not read the answer: then
the order has been recorded, and nothing else has changed. -/
theorem failed_unchanged (call : Call β) (b : β) (s : Session) {e : SessionError}
    (h : (call.run b s).1.1 = .error e) :
    (call.steady = true → (call.run b s).1.2 = b)
      ∧ ((call.run b s).2.table = s.table
        ∨ call.createsOrder = true ∧ OrderKept s (call.run b s).2) := by
  refine ⟨fun hsteady => call.steady_run hsteady b s e h, ?_⟩
  cases hcreates : call.createsOrder with
  | false =>
    left
    obtain ⟨d, hstate, -⟩ := call.clean hcreates b s s.connection e h
    change (call.run b s).2 = s.over d at hstate
    rw [hstate]
    rfl
  | true =>
    -- there is no other such call
    cases call with
    | createOrder =>
      obtain ⟨hx, hrun⟩ := Operation.inPlace_error h
      rw [run, hrun]
      exact (createOrder_failed hx).imp id fun hkept => ⟨rfl, hkept⟩
    | _ => cases hcreates

/-- An order that is made without a body fails, and is recorded. -/
theorem ordering_unreadable :
    (createOrder.run ordered (ordering "ccc")).1 = (.error .json, ordered)
      ∧ OrderKept (ordering "ccc") (createOrder.run ordered (ordering "ccc")).2 := by
  have hlocation : (made "ccc").location? = some "https://ca/order/1" := by decide +kernel
  have hresolve : Connection.resolve Endpoint.newOrder.name (ordering "ccc").connection
      = (.ok (some "https://ca/order"), (ordering "ccc").connection) := rfl
  have hdraw : Connection.consume (ordering "ccc").connection
      = (.ok "aaa", (Connection.consume (ordering "ccc").connection).2) := rfl
  -- the letter goes out, and its answer is good up to the body
  obtain ⟨m, hsent⟩ := ordering_run "ccc"
  obtain ⟨-, heffect⟩ := send_answered hresolve hdraw (Connection.posts_consume _)
    (recordOrder_silent customer) hsent
  obtain ⟨-, hcommitted⟩ := heffect (made "ccc") rfl rfl
  have hrun := hcommitted (by decide +kernel)
  have herror : (createOrder.run ordered (ordering "ccc")).1.1 = .error .json := by
    rw [run, Operation.inPlace_apply, hrun, Session.recordOrder, hlocation]
    rfl
  obtain ⟨hobject, hkept⟩ := failed_unchanged createOrder ordered (ordering "ccc") herror
  refine ⟨Prod.ext herror (hobject rfl), ?_⟩
  -- the table is not the same, so that it is the other case
  rcases hkept with hsame | ⟨-, hkept⟩
  · have htable : (createOrder.run ordered (ordering "ccc")).2.table
        = (ordering "ccc").table.recordOrder customer.id "https://ca/order/1" := by
      rw [run, Operation.inPlace_apply, hrun, Session.recordOrder, hlocation]
      rfl
    exact absurd (htable.symm.trans hsame) (by decide +kernel)
  · exact hkept

end Call

end Acme
