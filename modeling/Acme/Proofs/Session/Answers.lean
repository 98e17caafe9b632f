import Acme.Proofs.Session.Posting

/-!
# Answers

The answer that an operation ends with. A server that has been asked is another server: `Script.replay`
says which, and `Script.LastAnswer` which answer was the last. Since a server records what it was asked,
two servers have at most one last answer between them (`LastAnswer.unique`), so the answer can be told
from the sessions before and after an operation (`Session.Hears`).
-/

namespace Acme

open Stateful

namespace Http.Script

variable {s : Script} {route : Method × String} {r : Response}

/-! ### Queues -/

/-- An answer comes from the queue of its request. -/
theorem mem_queue_of_respond {q : Request} (h : (s.respond q).1 = .ok r) : r ∈ s.queue q.route := by
  rw [answer_respond] at h
  cases hqueue : s.queue q.route with
  | nil =>
    rw [hqueue] at h
    cases h
  | cons first rest =>
    rw [hqueue] at h
    cases h
    exact List.mem_cons_self

/-- No request adds an answer to a queue. -/
theorem queue_respond_subset (q : Request) : (s.respond q).2.queue route ⊆ s.queue route := by
  rw [queue_respond]
  split
  · exact (List.tail_sublist _).subset
  · exact List.Subset.refl _

/-! ### One request after another -/

/-- The server after some requests. -/
def replay (s : Script) (qs : List Request) : Script := qs.foldl (fun s q => (s.respond q).2) s

theorem replay_append (s : Script) (qs more : List Request) :
    s.replay (qs ++ more) = (s.replay qs).replay more := List.foldl_append

@[simp] theorem requests_replay (s : Script) (qs : List Request) :
    (s.replay qs).requests = s.requests ++ qs := by
  induction qs generalizing s with
  | nil => simp [replay]
  | cons q qs ih =>
    show ((s.respond q).2.replay qs).requests = _
    rw [ih, requests_respond, List.append_assoc]
    rfl

theorem queue_replay_subset (s : Script) (qs : List Request) :
    (s.replay qs).queue route ⊆ s.queue route := by
  induction qs generalizing s with
  | nil => exact fun _ h => h
  | cons q qs ih => exact fun _ h => queue_respond_subset q (ih (s.respond q).2 h)

/-- After some requests, the last of them got an answer. -/
def LastAnswer (before after : Script) (r : Response) : Prop :=
  ∃ qs q, after = ((before.replay qs).respond q).2 ∧ ((before.replay qs).respond q).1 = .ok r

namespace LastAnswer

variable {before after : Script}

/-- What happened before does not matter. -/
theorem of_replay {qs : List Request} (h : LastAnswer (before.replay qs) after r) :
    LastAnswer before after r := by
  obtain ⟨more, q, hafter, hanswer⟩ := h
  rw [← replay_append] at hafter hanswer
  exact ⟨qs ++ more, q, hafter, hanswer⟩

theorem unique {r' : Response} (h : LastAnswer before after r) (h' : LastAnswer before after r') :
    r = r' := by
  obtain ⟨qs, q, hafter, hanswer⟩ := h
  obtain ⟨qs', q', hafter', hanswer'⟩ := h'
  -- the record of the requests says which they were
  have hrequests : after.requests = before.requests ++ qs ++ [q] := by
    rw [hafter, requests_respond, requests_replay]
  rw [hafter', requests_respond, requests_replay, List.append_assoc, List.append_assoc,
    List.append_cancel_left_eq] at hrequests
  obtain ⟨rfl, hq⟩ := List.append_inj' hrequests rfl
  cases hq
  exact Except.ok.inj (hanswer.symm.trans hanswer')

end LastAnswer

end Http.Script

/-- Steps that sign nothing are requests like others to the server. -/
theorem Connection.exists_server_after {steps : List Step} (h : ∀ a ∈ steps, a.isQuiet)
    (c : Connection) : ∃ qs, (c.after steps).server = c.server.replay qs := by
  induction steps generalizing c with
  | nil => exact ⟨[], rfl⟩
  | cons a steps ih =>
    obtain ⟨qs, hqs⟩ := ih (fun b hb => h b (List.mem_cons_of_mem a hb)) (a.run c)
    have hquiet := h a List.mem_cons_self
    have hrequest : ∃ q, a.request? c = some q := by
      cases a with
      | directory | head url => exact ⟨_, rfl⟩
      | get url | post url body | prepare route r => cases hquiet
    obtain ⟨q, hq⟩ := hrequest
    refine ⟨q :: qs, ?_⟩
    rw [after_cons, hqs]
    show (a.server c).replay qs = _
    rw [Step.server_of_request? hq]
    rfl

/-! ### Operations -/

/-- Between two sessions some requests were made, and this is the answer to the last of them. -/
def Session.Hears (s s' : Session) (r : Http.Response) : Prop :=
  s.connection.server.LastAnswer s'.connection.server r

/-- An operation gives back the answer to its last request, which comes from a queue that was there. -/
def Operation.Hears (route : Http.Method × String) (x : Operation Http.Response) : Prop :=
  ∀ {s s' : Session} {r : Http.Response}, x s = (.ok r, s') →
    s.Hears s' r ∧ r ∈ s.connection.server.queue route

namespace Session

theorem absorb_server (r : Http.Response) (s : Session) :
    (absorb r s).2.connection.server = s.connection.server := by
  show (Connection.absorb r s.connection).2.server = _
  unfold Connection.absorb
  cases r.nonce? with
  | none => rfl
  | some n =>
    simp only [Connection.hold_apply]
    split <;> rfl

theorem send_hears (q : Http.Request) : (send q).Hears q.route := by
  intro s s' r h
  have hsend : Operation.exchange .transport (Connection.send q) s
      = ((s.connection.server.respond q).1.mapError .transport,
        { s with connection := { s.connection with server := (s.connection.server.respond q).2 } }) :=
    rfl
  rw [send, bind_apply, hsend] at h
  cases hanswer : (s.connection.server.respond q).1 with
  | error e =>
    rw [hanswer] at h
    cases h
  | ok a =>
    rw [hanswer] at h
    simp only [mapError_ok] at h
    -- taking in the nonce asks the server for nothing
    have hserver := absorb_server a
      { s with connection := { s.connection with server := (s.connection.server.respond q).2 } }
    rw [bind_apply] at h
    rcases habsorb : absorb a { s with connection :=
      { s.connection with server := (s.connection.server.respond q).2 } } with ⟨taken, t⟩
    rw [habsorb] at h hserver
    cases taken with
    | error e => cases h
    | ok _ =>
      cases h
      exact ⟨⟨[], q, hserver, hanswer⟩, Http.Script.mem_queue_of_respond hanswer⟩

theorem postAs_hears (p : SignPlan) (url : String) (payload : Bytes) :
    (postAs p url payload).Hears (.post, url) := by
  intro s s' r h
  obtain ⟨steps, hsteps, hquiet, -⟩ := Connection.consume_steps s.connection
  obtain ⟨qs, hqs⟩ := Connection.exists_server_after hquiet s.connection
  rw [postAs, bind_apply, signAs_apply, hsteps] at h
  split at h
  · rename_i m t hsigned
    obtain ⟨-, rfl⟩ := Prod.mk.inj hsigned
    obtain ⟨hlast, hmem⟩ := send_hears _ h
    rw [Hears, hqs] at hlast
    rw [hqs] at hmem
    exact ⟨hlast.of_replay, Http.Script.queue_replay_subset _ qs hmem⟩
  · cases h

theorem postDefault_hears (url : String) (payload : Bytes) :
    (postDefault url payload).Hears (.post, url) := by
  intro s s' r h
  rw [postDefault, post_given rfl] at h
  split at h
  · cases h
  · exact postAs_hears _ url payload h

/-- An answer that is expected is the one that was given, with the status. -/
theorem hears_expect {route : Http.Method × String} {x : Operation Http.Response} (hx : x.Hears route)
    {status : Http.Status} {s s' : Session} {r : Http.Response}
    (h : (x >>= expect status) s = (.ok r, s')) :
    s.Hears s' r ∧ r ∈ s.connection.server.queue route ∧ r.status = status := by
  rw [bind_apply] at h
  split at h
  · rename_i hrun
    unfold expect at h
    split at h
    · rename_i hstatus
      cases h
      obtain ⟨hhears, hmem⟩ := hx hrun
      exact ⟨hhears, hmem, hstatus⟩
    · cases h
  · cases h

theorem fetch_hears {url : String} {s s' : Session} {r : Http.Response}
    (h : fetch url s = (.ok r, s')) :
    s.Hears s' r ∧ r ∈ s.connection.server.queue (s.fetchMethod, url) ∧ r.status = .ok := by
  rw [fetch, bind_ok (get_apply s)] at h
  rw [fetchMethod]
  split at h
  · rename_i hsigned
    rw [if_pos hsigned]
    exact hears_expect (postDefault_hears url []) h
  · rename_i hsigned
    rw [if_neg hsigned]
    exact hears_expect (send_hears (.get url)) h

/-- What is heard takes answers out of queues and adds none. -/
theorem Hears.queue_subset {s s' : Session} {r : Http.Response} (h : s.Hears s' r)
    (route : Http.Method × String) :
    s'.connection.server.queue route ⊆ s.connection.server.queue route := by
  obtain ⟨qs, q, hafter, -⟩ := h
  rw [hafter]
  exact fun _ hr => Http.Script.queue_replay_subset _ qs (Http.Script.queue_respond_subset q hr)

end Session

end Acme
