import Acme.Proofs.Session.Authentication
import Acme.Proofs.Session.Posting

/-!
# Changing keys

A change of keys is one conversation: the directory is looked at, one nonce is drawn, and one message
is sent. The message is signed with the old key, and its payload is a message that is signed with the
new one and says whose key it replaces (`rollover_message`).
-/

namespace Acme.Session

open Operation Stateful

theorem rollover_eq (k : KeyPair) :
    rollover k = endpoint Endpoint.keyChange.name >>= fun url => activeIdentity >>= fun a =>
      Operation.ofExcept .key a.signer.jwk >>= fun oldKey =>
        payloadBytes (.keyChange a.id oldKey) >>= fun body =>
          Operation.ofExcept .sign (Jws.signInner k url body) >>= fun inner =>
            (post url inner.serialized).given ⟨false, some a.id, some a.signer, none⟩ >>= fun r =>
              expect .ok r >>= fun _ => replaceKey a k := rfl

/-- A change of keys up to the message that is sent. -/
theorem rollover_run (s : Session) (k : KeyPair) :
    Unposted s (rollover k s)
    ∨ ∃ a url looked oldKey body inner n drawn m,
      s.table.active? = some a ∧ a.isRegistered
        ∧ Connection.resolve Endpoint.keyChange.name s.connection = (.ok (some url), looked)
        ∧ a.signer.jwk = .ok oldKey
        ∧ (Payload.keyChange a.id oldKey).toBytes = .ok body
        ∧ Jws.signInner k url body = .ok inner
        ∧ Connection.consume looked = (.ok n, drawn)
        ∧ drawn.posts = s.connection.posts
        ∧ SignPlan.sign ⟨a.signer, .keyId a.id⟩ (some n) url inner.serialized = .ok m
        ∧ rollover k s =
            (send (.post url Http.joseJson m.serialized) >>= fun r =>
              expect .ok r >>= fun _ => replaceKey a k) { s with connection := drawn } := by
  rw [rollover_eq]
  -- each step ends the call with nothing posted, or hands on what the next one needs
  rcases endpoint_bind s _ _ with h | ⟨url, looked, hresolve, hlooked, hrun⟩
  · exact .inl h
  rw [hrun]
  rcases activeIdentity_bind _ _ with h | ⟨a, ha, hregistered, hrun⟩
  · exact .inl (h.of_posts hlooked)
  rw [hrun]
  rcases ofExcept_bind _ _ _ _ with h | ⟨oldKey, hold, hrun⟩
  · exact .inl (h.of_posts hlooked)
  rw [hrun]
  rcases ofExcept_bind _ _ _ _ with h | ⟨body, hbody, hrun⟩
  · exact .inl (h.of_posts hlooked)
  rw [payloadBytes, hrun]
  rcases ofExcept_bind _ _ _ _ with h | ⟨inner, hinner, hrun⟩
  · exact .inl (h.of_posts hlooked)
  rw [hrun, post_bind _ rfl (SignOptions.plan_active ha hregistered rfl (.inr rfl) (.inr rfl)) rfl]
  rcases postAs_bind _ _ _ _ _ with h | ⟨n, drawn, m, hdraw, hdrawn, hsign, hrun⟩
  · exact .inl (h.of_posts hlooked)
  exact .inr ⟨a, url, looked, oldKey, body, inner, n, drawn, m, ha, hregistered, hresolve, hold, hbody,
    hinner, hdraw, hdrawn.trans hlooked, hsign, hrun⟩

/-- What the server is told about another key: whose key it is to be, and which one it replaces. -/
theorem read?_keyChange {id : String} {oldKey : Jwk} {body : Bytes}
    (h : (Payload.keyChange id oldKey).toBytes = .ok body) :
    Json.read? body = some (.object [("account", .string id), ("oldKey", oldKey.toJson)]) := by
  unfold Payload.toBytes at h
  split at h
  · cases h
  · cases h
    apply Json.read?_text
    refine ⟨by decide, by simp, trivial, ?_, trivial⟩
    exact oldKey.fits_toJson (by decide)

/-- A change of keys posts its message if there is a registered account, the directory has the URL, a
nonce can be drawn, and both keys can be published and sign. -/
theorem rollover_posts {s : Session} {k : KeyPair} {a : Account} {url n : String}
    {looked drawn : Connection} {oldKey newKey : Jwk} (ha : s.table.active? = some a) (hid : a.id ≠ "")
    (holdKey : a.signer.jwk = .ok oldKey) (hnewKey : k.jwk = .ok newKey)
    (hresolve : Connection.resolve Endpoint.keyChange.name s.connection = (.ok (some url), looked))
    (hdraw : Connection.consume looked = (.ok n, drawn))
    (hold : ∀ b, ∃ signature, a.signer.sign b = .ok signature)
    (hnew : ∀ b, ∃ signature, k.sign b = .ok signature) :
    (rollover k s).2.connection.posts ≠ s.connection.posts := by
  have hregistered : a.isRegistered := by
    simpa [Account.isRegistered] using hid
  obtain ⟨body, hbody⟩ : ∃ body, (Payload.keyChange a.id oldKey).toBytes = .ok body := by
    simp [Payload.toBytes, Payload.error?, hid]
  obtain ⟨inner, hinner⟩ : ∃ inner, Jws.signInner k url body = .ok inner := by
    rw [Jws.signInner_of_jwk hnewKey]
    exact Jws.exists_signHeader hnew _ _
  obtain ⟨m, hsign⟩ : ∃ m, SignPlan.sign ⟨a.signer, .keyId a.id⟩ (some n) url inner.serialized = .ok m :=
    Jws.exists_signHeader hold _ _
  -- every step succeeds by one of the conditions, and only two of them change the connection
  have hpublished : Operation.ofExcept .key a.signer.jwk { s with connection := looked }
      = (.ok oldKey, { s with connection := looked }) := by
    rw [holdKey]
    rfl
  have hpayload : payloadBytes (.keyChange a.id oldKey) { s with connection := looked }
      = (.ok body, { s with connection := looked }) := by
    rw [payloadBytes, hbody]
    rfl
  have hsigned : Operation.ofExcept .sign (Jws.signInner k url body) { s with connection := looked }
      = (.ok inner, { s with connection := looked }) := by
    rw [hinner]
    rfl
  have hplan : (fillDefaults s.table ⟨false, some a.id, some a.signer, none⟩).plan true
      = .ok ⟨a.signer, .keyId a.id⟩ :=
    SignOptions.plan_active ha hregistered rfl (.inr rfl) (.inr rfl)
  have hactive := activeIdentity_ok (s := { s with connection := looked }) ha hregistered
  -- looking up the URL and drawing a nonce post nothing
  have hposts : drawn.posts = s.connection.posts := by
    have hlooked := Connection.posts_resolve s.connection Endpoint.keyChange.name
    have hdrawn := Connection.posts_consume looked
    rw [hresolve] at hlooked
    rw [hdraw] at hdrawn
    exact hdrawn.trans hlooked
  rw [rollover_eq, bind_ok (endpoint_ok hresolve), bind_ok hactive, bind_ok hpublished,
    bind_ok hpayload, bind_ok hsigned, post_bind { s with connection := looked } rfl hplan rfl,
    postAs_signed_bind { s with connection := looked } hdraw hsign,
    connection_send_bind _ _ _ _ fun _ => replaceKey_silent a k, posts_post, hposts]
  simp

/-- A change of keys posts nothing, or else one message and nothing more: with one nonce, for the
URL in the directory, signed with the old key in the name of the account. The message holds another
one for the same URL, signed with the new key, whose header has the new key but neither a nonce nor
an account; and that one says which account it is for and which key it replaces. It is posted
whenever there is an account, the URL and the nonce can be had, and the keys can be published and sign. -/
theorem rollover_message (s : Session) (k : KeyPair) :
    ((rollover k s).2.connection.posts = s.connection.posts
      ∨ ∃ a url looked n drawn q outer inner oldKey newKey,
        s.table.active? = some a ∧ a.id ≠ ""
          ∧ Connection.resolve Endpoint.keyChange.name s.connection = (.ok (some url), looked)
          ∧ Connection.consume looked = (.ok n, drawn)
          ∧ (rollover k s).2.connection = (Connection.Step.post url q.body).run drawn
          ∧ (rollover k s).2.connection.posts = s.connection.posts ++ [q]
          ∧ q.url = url
          ∧ Authenticated ⟨a.signer, .keyId a.id⟩ n q outer
          ∧ Jws.parse outer.payload = .ok inner
          ∧ a.signer.jwk = .ok oldKey ∧ k.jwk = .ok newKey
          ∧ inner.header = { alg := k.algorithm.signatureName, nonce := none, url,
                             jwk := some newKey, kid := none }
          ∧ k.sign (Bytes.ofText inner.signingInput) = .ok inner.signature
          ∧ (∃ j b, Jws.ofBytes? outer.payload = some j ∧ Jws.decoded j.header = .ok b
              ∧ Json.read? b = some (.object [("alg", .string k.algorithm.signatureName),
                  ("url", .string url), ("jwk", newKey.toJson)]))
          ∧ Json.read? inner.payload
              = some (.object [("account", .string a.id), ("oldKey", oldKey.toJson)]))
    ∧ ∀ a url looked n drawn oldKey newKey,
        s.table.active? = some a → a.id ≠ "" →
        a.signer.jwk = .ok oldKey → k.jwk = .ok newKey →
        Connection.resolve Endpoint.keyChange.name s.connection = (.ok (some url), looked) →
        Connection.consume looked = (.ok n, drawn) →
        (∀ b, ∃ signature, a.signer.sign b = .ok signature) →
        (∀ b, ∃ signature, k.sign b = .ok signature) →
        (rollover k s).2.connection.posts ≠ s.connection.posts := by
  refine ⟨?_, fun a url looked n drawn oldKey newKey ha hid holdKey hnewKey hresolve hdraw hold
    hnew => rollover_posts ha hid holdKey hnewKey hresolve hdraw hold hnew⟩
  rcases rollover_run s k with ⟨e, c, hrun, hposts⟩ | ⟨a, url, looked, oldKey, body, inner, n, drawn,
    m, ha, hregistered, hresolve, hold, hbody, hinner, hdraw, hdrawn, hsign, hrun⟩
  · left
    rw [hrun]
    exact hposts
  · right
    -- the outer message is signed by the old key, the inner one, which is its payload, by the new
    obtain ⟨houter, hpayload⟩ := SignPlan.authenticated hsign
    obtain ⟨newKey, hnew, hinner⟩ := Jws.signInner_ok hinner
    obtain ⟨hparse, hheader, hcontent, hsigned⟩ := Jws.signHeader_ok hinner
    have hconnection : (rollover k s).2.connection
        = (Connection.Step.post url m.serialized).run drawn := by
      rw [hrun, connection_send_bind _ _ _ _ fun _ => replaceKey_silent a k]
    refine ⟨a, url, looked, n, drawn, .post url Http.joseJson m.serialized, m.parsed, inner.parsed,
      oldKey, newKey, ha, ?_, hresolve, hdraw, hconnection, ?_, rfl, houter, ?_, hold, hnew, hheader,
      hsigned, ?_, ?_⟩
    · rintro hid
      simp [Account.isRegistered, hid] at hregistered
    · rw [hconnection, posts_post, hdrawn]
    · rw [hpayload]
      exact hparse
    · rw [hpayload]
      exact Jws.signHeader_header hinner
    · rw [hcontent]
      exact read?_keyChange hbody

end Acme.Session
