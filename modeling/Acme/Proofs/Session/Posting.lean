import Acme.Proofs.Session.Requests

/-!
# Operations that post one letter

Taking an operation apart from its beginning. Each part either ends the operation before anything is
posted (`Unposted`), or gives a value with which the rest goes on; the statements below say for every
part what that value is and what has become of the session.
-/

namespace Acme

open Stateful

variable {α β : Type}

/-- A run that fails before anything is posted or any account is changed. -/
def Operation.Unposted (s : Session) (out : Except SessionError α × Session) : Prop :=
  ∃ e c, out = (.error e, { s with connection := c }) ∧ c.posts = s.connection.posts

theorem Operation.Unposted.error (s : Session) (e : SessionError) :
    Unposted s ((.error e, s) : Except SessionError α × Session) :=
  ⟨e, s.connection, rfl, rfl⟩

theorem Operation.Unposted.posts {s : Session} {out : Except SessionError α × Session}
    (h : Unposted s out) : out.2.connection.posts = s.connection.posts := by
  obtain ⟨e, c, rfl, hposts⟩ := h
  exact hposts

/-- What has happened before only matters by what was posted. -/
theorem Operation.Unposted.of_posts {s : Session} {c : Connection}
    {out : Except SessionError α × Session} (h : Unposted { s with connection := c } out)
    (hposts : c.posts = s.connection.posts) : Unposted s out := by
  obtain ⟨e, d, hout, hd⟩ := h
  exact ⟨e, d, hout, hd.trans hposts⟩

namespace Session

open Operation

variable (f : α → Operation β) (s : Session)

theorem endpoint_ok {s : Session} {name url : String} {looked : Connection}
    (h : Connection.resolve name s.connection = (.ok (some url), looked)) :
    endpoint name s = (.ok url, { s with connection := looked }) := by
  rw [endpoint_apply, h]

theorem activeIdentity_ok {s : Session} {a : Account} (ha : s.table.active? = some a)
    (hregistered : a.isRegistered) : activeIdentity s = (.ok a, s) := by
  rw [activeIdentity, bind_ok (get_apply s), ha]
  simp [hregistered, pure_apply]

theorem endpoint_bind (name : String) (f : String → Operation β) :
    Unposted s ((endpoint name >>= f) s)
    ∨ ∃ url looked, Connection.resolve name s.connection = (.ok (some url), looked)
        ∧ looked.posts = s.connection.posts
        ∧ (endpoint name >>= f) s = f url { s with connection := looked } := by
  have hposts := Connection.posts_resolve s.connection name
  have hendpoint := endpoint_apply name s
  rcases hresolve : Connection.resolve name s.connection with ⟨r, looked⟩
  rw [hresolve] at hposts hendpoint
  rcases r with e | _ | url
  · exact .inl ⟨_, looked, bind_error hendpoint, hposts⟩
  · exact .inl ⟨_, looked, bind_error hendpoint, hposts⟩
  · exact .inr ⟨url, looked, rfl, hposts, bind_ok hendpoint⟩

theorem activeIdentity_bind (f : Account → Operation β) :
    Unposted s ((activeIdentity >>= f) s)
    ∨ ∃ a, s.table.active? = some a ∧ a.isRegistered ∧ (activeIdentity >>= f) s = f a s := by
  cases ha : s.table.active? with
  | none =>
    left
    rw [bind_apply, activeIdentity, bind_ok (get_apply s), ha]
    exact .error s _
  | some a =>
    by_cases hregistered : a.isRegistered
    · exact .inr ⟨a, rfl, hregistered, bind_ok (activeIdentity_ok ha hregistered)⟩
    · left
      rw [bind_apply, activeIdentity, bind_ok (get_apply s), ha]
      refine ⟨.notCreated, s.connection, ?_, rfl⟩
      simp only [hregistered, Bool.not_false, if_true]
      rfl

theorem ofExcept_bind {ε : Type} (wrap : ε → SessionError) (r : Except ε α) :
    Unposted s ((Operation.ofExcept wrap r >>= f) s)
    ∨ ∃ a, r = .ok a ∧ (Operation.ofExcept wrap r >>= f) s = f a s := by
  cases r with
  | error e => exact .inl (.error s _)
  | ok a => exact .inr ⟨a, rfl, rfl⟩

theorem postAs_signed_bind {p : SignPlan} {url n : String} {payload : Bytes} {drawn : Connection}
    {m : SignedJws} (hdraw : Connection.consume s.connection = (.ok n, drawn))
    (hsign : p.sign (some n) url payload = .ok m) (f : Http.Response → Operation β) :
    (postAs p url payload >>= f) s
      = (send (.post url Http.joseJson m.serialized) >>= f) { s with connection := drawn } := by
  rw [bind_apply, postAs_signed hdraw hsign, ← bind_apply]

/-- A letter that is posted has drawn a nonce. -/
theorem postAs_bind (p : SignPlan) (url : String) (payload : Bytes)
    (f : Http.Response → Operation β) :
    Unposted s ((postAs p url payload >>= f) s)
    ∨ ∃ n drawn m, Connection.consume s.connection = (.ok n, drawn)
        ∧ drawn.posts = s.connection.posts
        ∧ p.sign (some n) url payload = .ok m
        ∧ (postAs p url payload >>= f) s
            = (send (.post url Http.joseJson m.serialized) >>= f)
                { s with connection := drawn } := by
  have hposts := Connection.posts_consume s.connection
  -- a nonce is drawn and the letter is signed before anything is sent
  rcases hdraw : Connection.consume s.connection with ⟨r, drawn⟩
  rw [hdraw] at hposts
  cases r with
  | error e =>
    left
    rw [bind_apply, postAs, bind_apply, signAs_apply, hdraw]
    exact ⟨_, drawn, rfl, hposts⟩
  | ok n =>
    cases hsign : p.sign (some n) url payload with
    | error e =>
      left
      rw [bind_apply, postAs, bind_apply, signAs_apply, hdraw]
      exact ⟨.sign e, drawn, by simp only [hsign, mapError_error], hposts⟩
    | ok m => exact .inr ⟨n, drawn, m, rfl, hposts, hsign, postAs_signed_bind s hdraw hsign f⟩

theorem post_bind {t : AccountTable} {o : SignOptions} {p : SignPlan} (hnonces : o.nonces = none)
    (hplan : (fillDefaults t o).plan true = .ok p) (ht : s.table = t) (url : String)
    (payload : Bytes) (f : Http.Response → Operation β) :
    ((post url payload).given o >>= f) s = (postAs p url payload >>= f) s := by
  rw [bind_apply, bind_apply, post_given hnonces, ht, hplan]

/-- A letter that embeds a key is posted if there is a public key to embed. -/
theorem post_embedding_bind (k : KeyPair) (url : String) (payload : Bytes)
    (f : Http.Response → Operation β) :
    Unposted s (((post url payload).given (embedding k) >>= f) s)
    ∨ ∃ j, k.jwk = .ok j ∧ ((post url payload).given (embedding k) >>= f) s
        = (postAs ⟨k, .jwk j⟩ url payload >>= f) s := by
  cases hj : k.jwk with
  | error e =>
    left
    rw [bind_apply, post_given rfl, SignOptions.plan_of_validate (SignOptions.validate_embedding _ k),
      KeyBinding.ofKey_none_error hj]
    exact .error s _
  | ok j => exact .inr ⟨j, rfl, post_bind s rfl (SignOptions.plan_embedding hj) rfl url payload f⟩

/-- The answer to a letter reaches the rest of the operation only if its nonce is new. -/
theorem send_bind (url : String) (body : Bytes) (f : Http.Response → Operation β) :
    (send (.post url Http.joseJson body) >>= f) s =
      match (s.connection.server.respond (.post url Http.joseJson body)).1 with
      | .error e =>
        (.error (.transport e),
          { s with connection := (Connection.Step.post url body).run s.connection })
      | .ok r =>
        if r.nonce? = some s.connection.nonce then
          (.error (.nonce (.duplicate s.connection.nonce)),
            { s with connection := (Connection.Step.post url body).run s.connection })
        else f r { s with connection := (Connection.Step.post url body).run s.connection } := by
  have hrequest : (Connection.Step.post url body).request? s.connection
      = some (.post url Http.joseJson body) := rfl
  rw [bind_apply, send_apply s hrequest rfl]
  cases (s.connection.server.respond (.post url Http.joseJson body)).1 with
  | error e => rfl
  | ok r =>
    cases hnonce : r.nonce? with
    | none => simp [hnonce]
    | some n =>
      by_cases hheld : s.connection.nonce = n
      · simp [hnonce, hheld]
      · simp [hnonce, hheld, Ne.symm hheld]

theorem expect_bind {status : Http.Status} {r : Http.Response} (h : r.status = status)
    (f : Http.Response → Operation β) : (expect status r >>= f) s = f r s := by
  rw [expect, if_pos h]
  rfl

/-- The rest of the operation is only reached by an answer that has the status. -/
theorem send_bind_cases (url : String) (body : Bytes) (status : Http.Status)
    (f : Http.Response → Operation β) :
    (∃ e, (send (.post url Http.joseJson body) >>= fun r => expect status r >>= f) s
        = (.error e, { s with connection := (Connection.Step.post url body).run s.connection }))
    ∨ ∃ r, (s.connection.server.respond (.post url Http.joseJson body)).1 = .ok r ∧ r.status = status
        ∧ (send (.post url Http.joseJson body) >>= fun r => expect status r >>= f) s
            = f r { s with connection := (Connection.Step.post url body).run s.connection } := by
  rw [send_bind]
  cases hanswer : (s.connection.server.respond (.post url Http.joseJson body)).1 with
  | error e => exact .inl ⟨_, rfl⟩
  | ok r =>
    simp only []
    split
    · exact .inl ⟨_, rfl⟩
    · by_cases hstatus : r.status = status
      · exact .inr ⟨r, rfl, hstatus, expect_bind _ hstatus f⟩
      · rw [expect, if_neg hstatus]
        exact .inl ⟨_, rfl⟩

/-- Sending is the last that is done to the connection if the rest leaves it alone. -/
theorem connection_send_bind (url : String) (body : Bytes) (status : Http.Status)
    {f : Http.Response → Operation β} (hf : ∀ r, Silent (f r)) :
    ((send (.post url Http.joseJson body) >>= fun r => expect status r >>= f) s).2.connection
      = (Connection.Step.post url body).run s.connection := by
  rcases send_bind_cases s url body status f with ⟨e, hrun⟩ | ⟨r, -, -, hrun⟩
  · rw [hrun]
  · rw [hrun]
    exact hf r _

/-- The request of a letter that is sent is the only one that is added to the signed ones. -/
theorem posts_post (url : String) (body : Bytes) (c : Connection) :
    ((Connection.Step.post url body).run c).posts = c.posts ++ [.post url Http.joseJson body] := by
  rw [Connection.posts, Connection.requests_run, List.filter_append]
  rfl

end Session

end Acme
