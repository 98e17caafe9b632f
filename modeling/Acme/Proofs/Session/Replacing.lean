import Acme.Proofs.Resource
import Acme.Proofs.Session.Answers
import Acme.Proofs.Session.Calls

/-!
# Objects are replaced as a whole

Operations that bring an object up to date make a new one out of the object's URL and the last answer
(`Operation.Replaces`). So nothing else of the old object is left (`Call.Replaces`): not a member that
the body leaves out, and not a URL that the body gives.
-/

namespace Acme

open Stateful

variable {α β R : Type} [Resource R]

namespace Operation

/-- If an operation succeeds, a part of its result is the resource at a URL that its last answer
describes. -/
def Replaces (url : String) (part : α → R) (x : Operation α) : Prop :=
  ∀ (s s' : Session) (a : α), x s = (.ok a, s') →
    ∃ answer, s.Hears s' answer ∧ answer.status = .ok
      ∧ Resource.ofBody? url answer.body = some (part a)

namespace Replaces

variable {url : String} {part : α → R}

theorem ite {p : Prop} [Decidable p] {x y : Operation α} (hx : p → Replaces url part x)
    (hy : ¬ p → Replaces url part y) : Replaces url part (if p then x else y) := by
  split
  · exact hx ‹_›
  · exact hy ‹_›

theorem throw_bind (e : SessionError) (f : β → Operation α) :
    Replaces url part ((MonadExcept.throw e : Operation β) >>= f) := by
  intro s s' a h
  cases h

/-- What is done before without a request does not matter. -/
theorem silent_bind {x : Operation β} {f : β → Operation α} (hx : Silent x)
    (hf : ∀ b, Replaces url part (f b)) : Replaces url part (x >>= f) := by
  intro s s' a h
  have hconnection := hx s
  rw [bind_apply] at h
  split at h
  · rename_i b t hrun
    rw [hrun] at hconnection
    obtain ⟨answer, hhears, hanswer⟩ := hf b t s' a h
    refine ⟨answer, ?_, hanswer⟩
    rw [Session.Hears, ← hconnection]
    exact hhears
  · cases h

/-- The answer that is heard last describes the result. -/
theorem heard_bind {x : Operation Http.Response} {f : Http.Response → Operation α}
    (hx : ∀ {s s' r}, x s = (.ok r, s') → s.Hears s' r ∧ r.status = .ok)
    (hf : ∀ {r s s' a}, f r s = (.ok a, s') →
      s' = s ∧ Resource.ofBody? url r.body = some (part a)) :
    Replaces url part (x >>= f) := by
  intro s s' a h
  rw [bind_apply] at h
  split at h
  · rename_i r t hrun
    obtain ⟨hhears, hstatus⟩ := hx hrun
    obtain ⟨rfl, hbody⟩ := hf h
    exact ⟨r, hhears, hstatus, hbody⟩
  · cases h

theorem expected_bind {route : Http.Method × String} {x : Operation Http.Response}
    {f : Http.Response → Operation α} (hx : x.Hears route)
    (hf : ∀ {r s s' a}, f r s = (.ok a, s') →
      s' = s ∧ Resource.ofBody? url r.body = some (part a)) :
    Replaces url part (x >>= fun r => Session.expect .ok r >>= f) := by
  rw [← bind_assoc]
  exact heard_bind (fun h => (Session.hears_expect hx h).imp_right (·.2)) hf

theorem bind_pure {x : Operation α} (h : Replaces url part x) :
    Replaces url id (x >>= fun a => pure (part a)) := by
  intro s s' a hrun
  rw [bind_apply] at hrun
  split at hrun
  · rename_i hx
    cases hrun
    exact h _ _ _ hx
  · cases hrun

end Replaces

end Operation

namespace Session

open Operation

theorem replaced_ok {r r' : R} {answer : Http.Response} {s s' : Session}
    (h : replaced r answer s = (.ok r', s')) :
    s' = s ∧ Resource.ofBody? (Resource.id r) answer.body = some r' := by
  unfold replaced at h
  cases hbody : Resource.replaced? r answer.body with
  | none =>
    rw [hbody] at h
    cases h
  | some q =>
    rw [hbody] at h
    cases h
    exact ⟨rfl, hbody⟩

theorem ofExcept_silent {ε : Type} (wrap : ε → SessionError) (r : Except ε α) :
    Silent (Operation.ofExcept wrap r) := fun _ => rfl

theorem certificateKey_silent (given : Option KeyPair) (seed : Bytes) :
    Silent (certificateKey given seed) := by
  unfold certificateKey
  split
  · exact .pure _
  · exact .throw _

theorem update_replaces (r : R) : (update r).Replaces (Resource.id r) id :=
  .ite (fun _ => .throw_bind _ _) fun _ =>
    .heard_bind (fun h => (fetch_hears h).imp_right (·.2)) replaced_ok

theorem respondChallenge_replaces (c : Challenge) : (respondChallenge c).Replaces c.url id := by
  refine .ite (fun _ => .throw_bind _ _) fun _ => ?_
  refine .silent_bind (ofExcept_silent _ _) fun body => ?_
  exact .expected_bind (postDefault_hears c.url body) replaced_ok

theorem deactivateAuthorization_replaces (a : Authorization) :
    (deactivateAuthorization a).Replaces a.id id := by
  refine .ite (fun _ => .throw_bind _ _) fun _ => ?_
  refine .silent_bind (ofExcept_silent _ _) fun body => ?_
  exact .expected_bind (postDefault_hears a.id body) replaced_ok

/-- Finalizing gives back the key as well, which was there before. -/
theorem finalize_replaces (o : Order) (given : Option KeyPair) (seed : Bytes) :
    (finalize o given seed).Replaces o.id Prod.fst := by
  refine .ite (fun _ => .throw_bind _ _) fun _ => ?_
  refine .silent_bind (certificateKey_silent given seed) fun k => ?_
  refine .silent_bind (ofExcept_silent _ _) fun request => ?_
  refine .silent_bind (ofExcept_silent _ _) fun body => ?_
  refine .expected_bind (postDefault_hears o.finalize body) fun {r s s' a} h => ?_
  rw [bind_apply] at h
  split at h
  · rename_i hreplaced
    cases h
    exact replaced_ok hreplaced
  · cases h

end Session

/-! ### Calls -/

/-- A call replaces its object as a whole by what its last answer says. What else of an object its
requests are made from is the same in objects that are alike. -/
structure Call.Replaces (call : Call R) (Alike : R → R → Prop) : Prop where
  /-- After a success the object is what the last answer says, at its own URL. -/
  described {s s' : Session} {r r' : R} (h : call.run r s = ((.ok (), r'), s')) :
    Resource.id r' = Resource.id r ∧ ∃ answer, s.Hears s' answer ∧ answer.status = .ok
      ∧ Resource.ofBody? (Resource.id r) answer.body = some r'
  /-- Two objects with the same URL end up the same if the last answers are, whatever they were before
  and in whatever sessions. -/
  forgets {s s' t t' : Session} {r r' q q' : R} {answer : Http.Response}
    (hid : Resource.id r = Resource.id q)
    (hr : call.run r s = ((.ok (), r'), s')) (hq : call.run q t = ((.ok (), q'), t'))
    (hs : s.Hears s' answer) (ht : t.Hears t' answer) :
    r' = q' ∧ Resource.ofBody? (Resource.id r) answer.body = some r'
  /-- In the same session alike objects with the same URL hear the same. -/
  alike {r q : R} (s : Session) (hid : Resource.id r = Resource.id q) (hlike : Alike r q) :
    (call.run r s).2 = (call.run q s).2 ∧ (call.run r s).1.1 = (call.run q s).1.1
      ∧ ((call.run r s).1.1 = .ok () → (call.run r s).1.2 = (call.run q s).1.2)

namespace Call

open Operation

theorem Replaces.inPlace {call : Call R} {Alike : R → R → Prop} {x : R → Operation R}
    (hcall : call.run = inPlace x) (lawful : Resource.Lawful R)
    (hx : ∀ r, (x r).Replaces (Resource.id r) id)
    (hlike : ∀ r q, Resource.id r = Resource.id q → Alike r q → x r = x q) : call.Replaces Alike := by
  have hdescribed {s s' : Session} {r r' : R} (h : call.run r s = ((.ok (), r'), s')) :
      ∃ answer, s.Hears s' answer ∧ answer.status = .ok
        ∧ Resource.ofBody? (Resource.id r) answer.body = some r' := by
    rw [hcall, inPlace_apply] at h
    split at h
    · rename_i hrun
      cases h
      exact hx r _ _ _ hrun
    · cases h
  refine ⟨?described, ?forgets, ?alike⟩
  case described =>
    intro s s' r r' h
    obtain ⟨answer, hhears, hstatus, hbody⟩ := hdescribed h
    obtain ⟨n, q, -, -, rfl⟩ := Resource.ofBody?_eq_some_iff.mp hbody
    exact ⟨lawful.id_withId q _, answer, hhears, hstatus, hbody⟩
  case forgets =>
    -- each heard its own last answer, and there is only one
    intro s s' t t' r r' q q' answer hid hr hq hs ht
    obtain ⟨heard, hheard, -, hbody⟩ := hdescribed hr
    obtain ⟨heard', hheard', -, hbody'⟩ := hdescribed hq
    obtain rfl := hheard.unique hs
    obtain rfl := hheard'.unique ht
    rw [← hid, hbody] at hbody'
    exact ⟨Option.some.inj hbody', hbody⟩
  case alike =>
    intro r q s hid hsame
    rw [hcall, inPlace_apply, inPlace_apply, hlike r q hid hsame]
    rcases x q s with ⟨result, s'⟩
    cases result with
    | ok r' => exact ⟨rfl, rfl, fun _ => rfl⟩
    | error e => exact ⟨rfl, rfl, nofun⟩

theorem update_replaces (lawful : Resource.Lawful R) : (update : Call R).Replaces fun _ _ => True := by
  refine .inPlace rfl lawful Session.update_replaces fun r q hid _ => ?_
  simp only [Session.update, Session.replaced, Resource.replaced?, hid]

theorem respondChallenge_replaces : respondChallenge.Replaces fun _ _ => True := by
  refine .inPlace rfl Challenge.lawful Session.respondChallenge_replaces fun c d hid _ => ?_
  have hurl : c.url = d.url := hid
  simp only [Session.respondChallenge, Session.replaced, Resource.replaced?, hid, hurl]

theorem deactivateAuthorization_replaces : deactivateAuthorization.Replaces fun _ _ => True := by
  refine .inPlace rfl Authorization.lawful Session.deactivateAuthorization_replaces fun a b hid _ => ?_
  have hid' : a.id = b.id := hid
  simp only [Session.deactivateAuthorization, Session.replaced, Resource.replaced?, hid, hid']

/-- Finalizing also uses the order's URL for it and its identifiers. -/
theorem finalize_replaces (given : Option KeyPair) (seed : Bytes) :
    (finalize given seed).Replaces fun o p =>
      o.finalize = p.finalize ∧ o.identifiers = p.identifiers := by
  refine .inPlace rfl Order.lawful (fun o => (Session.finalize_replaces o given seed).bind_pure)
    fun o p hid hsame => ?_
  simp only [Session.finalize, Session.replaced, Resource.replaced?, hid, hsame.1, hsame.2]

/-- Bringing an order, an authorization or a challenge up to date in any way replaces it as a whole by
what the last answer says at its own URL, and what the answer's body leaves out has its default. -/
theorem replaced_wholly (given : Option KeyPair) (seed : Bytes) :
    ((update : Call Order).Replaces fun _ _ => True)
    ∧ ((update : Call Authorization).Replaces fun _ _ => True)
    ∧ ((update : Call Challenge).Replaces fun _ _ => True)
    ∧ (respondChallenge.Replaces fun _ _ => True)
    ∧ (deactivateAuthorization.Replaces fun _ _ => True)
    ∧ ((finalize given seed).Replaces fun o p =>
      o.finalize = p.finalize ∧ o.identifiers = p.identifiers)
    ∧ (∀ url body (o : Order), Resource.ofBody? url body = some o →
      ∃ n, Json.Node.read body = some n ∧ o.Defaulted n)
    ∧ (∀ url body (a : Authorization), Resource.ofBody? url body = some a →
      ∃ n, Json.Node.read body = some n ∧ a.Defaulted n)
    ∧ ∀ url body (c : Challenge), Resource.ofBody? url body = some c →
      ∃ n, Json.Node.read body = some n ∧ c.Defaulted n := by
  refine ⟨update_replaces Order.lawful, update_replaces Authorization.lawful,
    update_replaces Challenge.lawful, respondChallenge_replaces, deactivateAuthorization_replaces,
    finalize_replaces given seed, ?order, ?authorization, ?challenge⟩
  -- what was read is read again to see where its defaults come from
  case order =>
    intro url body o h
    obtain ⟨n, q, hn, hq, rfl⟩ := Resource.ofBody?_eq_some_iff.mp h
    exact ⟨n, hn, Order.defaulted hq url⟩
  case authorization =>
    intro url body a h
    obtain ⟨n, q, hn, hq, rfl⟩ := Resource.ofBody?_eq_some_iff.mp h
    exact ⟨n, hn, Authorization.defaulted hq url⟩
  case challenge =>
    intro url body c h
    obtain ⟨n, q, hn, hq, rfl⟩ := Resource.ofBody?_eq_some_iff.mp h
    exact ⟨n, hn, Challenge.defaulted hq url⟩

/-- A session that fetches without signatures, from a server with an answer for a challenge. -/
def asking : Session where
  config := { Config.default with postAsGet := false }
  connection := .start ⟨[((.get, "https://ca/chall/1"),
    (Http.Response.ofCode 200).withBody Resource.movedChallenge)], []⟩ Config.stagingUrl
  table := .empty

/-- A challenge of which nothing but the URL is true any more. -/
def stale : Challenge where
  type := .other "x-01"
  url := "https://ca/chall/1"
  token := "old"
  status := .invalid
  validated := none
  error := some ⟨"gone", "", some 410⟩

/-- The body leaves out the token, the state and the problem, and gives another URL. -/
theorem stale_replaced :
    ∃ s' answer, update.run stale asking = ((.ok (), Resource.moved), s') ∧ asking.Hears s' answer
      ∧ Resource.ofBody? stale.url answer.body = some Resource.moved
      ∧ Resource.moved.url = stale.url ∧ Resource.moved.token = "" ∧ Resource.moved.error = none := by
  obtain ⟨-, -, hupdate, -⟩ := replaced_wholly none []
  have hrun : (update.run stale asking).1 = (.ok (), Resource.moved) := by decide +kernel
  obtain ⟨hurl, answer, hhears, -, hbody⟩ := hupdate.described (Prod.ext hrun rfl)
  exact ⟨_, answer, Prod.ext hrun rfl, hhears, hbody, hurl, rfl, rfl⟩

end Call

end Acme
