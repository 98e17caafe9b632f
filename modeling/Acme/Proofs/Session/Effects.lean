import Acme.Proofs.Key.Support
import Acme.Proofs.Session.Rollover

/-!
# What the server has agreed to

When the server answers that an account or an order has been made, or that a key has been replaced,
the session has to follow. It does so exactly if the answer does not bring the nonce that is held when
it comes: a nonce that is held is refused before the answer is looked at (`acknowledged_effects`).
-/

namespace Acme

/-! ### Tables of accounts -/

namespace AccountTable

variable {t : AccountTable} {a : Account}

theorem active?_mem (h : t.active? = some a) : a ∈ t.accounts := by
  obtain ⟨index, -, hindex⟩ := Option.bind_eq_some_iff.1 h
  exact List.mem_of_getElem? hindex

/-- An order is recorded with one account. -/
theorem recordOrder_of_mem (h : a ∈ t.accounts) (url : String) :
    ∃ index b, t.accounts[index]? = some b ∧ b.id = a.id
      ∧ t.recordOrder a.id url = t.modify index fun b => { b with orders := b.orders ++ [url] } := by
  unfold recordOrder
  cases hfind : t.accounts.findIdx? (·.id == a.id) with
  | none =>
    have hother := List.findIdx?_eq_none_iff.1 hfind a h
    simp at hother
  | some index =>
    obtain ⟨hlength, hid, -⟩ := List.findIdx?_eq_some_iff_getElem.1 hfind
    exact ⟨index, t.accounts[index], List.getElem?_eq_getElem hlength, eq_of_beq hid, rfl⟩

/-- An order that is recorded for an account of the table can be found with one that has its URL. -/
theorem mem_recordOrder (h : a ∈ t.accounts) (url : String) :
    ∃ b ∈ (t.recordOrder a.id url).accounts, b.id = a.id ∧ url ∈ b.orders := by
  obtain ⟨index, b, hindex, hid, hrecorded⟩ := recordOrder_of_mem h url
  have hget : (t.accounts.modify index fun b => { b with orders := b.orders ++ [url] })[index]?
      = some { b with orders := b.orders ++ [url] } := by
    rw [List.getElem?_modify_eq, hindex]
    rfl
  rw [hrecorded]
  exact ⟨_, List.mem_of_getElem? hget, hid, List.mem_append_right _ (List.mem_singleton_self url)⟩

end AccountTable

namespace Session

open Operation Stateful

/-- The one signed request of a run, for an operation that looks up a name in the directory: `q` is
added to the signed requests, `answer` is what becomes of it, and `held` is the nonce that is held when
the answer comes. -/
def Answered (s : Session) (name : String) (c : Connection) (q : Http.Request)
    (answer : Except Http.TransportError Http.Response) (held : String) : Prop :=
  ∃ url looked n drawn,
    Connection.resolve name s.connection = (.ok (some url), looked)
      ∧ Connection.consume looked = (.ok n, drawn)
      ∧ drawn.nonce = held
      ∧ c.posts = s.connection.posts ++ [q]
      ∧ (drawn.server.respond q).1 = answer

theorem Answered.posts_ne {s : Session} {name held : String} {c : Connection} {q : Http.Request}
    {answer : Except Http.TransportError Http.Response} (h : Answered s name c q answer held) :
    c.posts ≠ s.connection.posts := by
  obtain ⟨url, looked, n, drawn, -, -, -, hposts, -⟩ := h
  rw [hposts]
  intro heq
  simpa using congrArg List.length heq

/-- What was looked up and drawn, and so what was answered, is determined by the session. -/
theorem Answered.unique {s : Session} {name held held' : String} {c : Connection}
    {q q' : Http.Request} {answer answer' : Except Http.TransportError Http.Response}
    (h : Answered s name c q answer held) (h' : Answered s name c q' answer' held') :
    q = q' ∧ answer = answer' ∧ held = held' := by
  obtain ⟨url, looked, n, drawn, hresolve, hdraw, hheld, hposts, hanswer⟩ := h
  obtain ⟨url', looked', n', drawn', hresolve', hdraw', hheld', hposts', hanswer'⟩ := h'
  rw [hresolve] at hresolve'
  cases hresolve'
  rw [hdraw] at hdraw'
  cases hdraw'
  have hsame := List.append_cancel_left (hposts.symm.trans hposts')
  obtain rfl : q = q' := (List.cons.inj hsame).1
  exact ⟨rfl, hanswer.symm.trans hanswer', hheld.symm.trans hheld'⟩

/-- Registering an account up to the message that is sent. -/
theorem createAccount_run (s : Session) (a : Account) :
    Unposted s (createAccount a s)
    ∨ ∃ url looked n drawn, ∃ m : SignedJws,
      Connection.resolve Endpoint.newAccount.name s.connection = (.ok (some url), looked)
        ∧ Connection.consume looked = (.ok n, drawn)
        ∧ drawn.posts = s.connection.posts
        ∧ createAccount a s =
            (send (.post url Http.joseJson m.serialized) >>= fun r =>
              expect .created r >>= nameAccount a
                (if a.contact.isEmpty then s.config.contact else a.contact))
              { s with connection := drawn } := by
  rw [createAccount]
  by_cases hregistered : a.isRegistered
  · rw [if_pos hregistered]
    exact .inl (.error s _)
  rw [if_neg hregistered]
  dsimp only
  -- each step ends the call with nothing posted, or hands on what the next one needs
  rcases endpoint_bind s _ _ with h | ⟨url, looked, hresolve, hlooked, hrun⟩
  · exact .inl h
  rw [hrun, bind_ok (get_apply _)]
  rcases ofExcept_bind _ _ _ _ with h | ⟨body, hbody, hrun⟩
  · exact .inl (h.of_posts hlooked)
  rw [payloadBytes, hrun]
  rcases post_embedding_bind _ a.signer url body _ with h | ⟨j, hj, hrun⟩
  · exact .inl (h.of_posts hlooked)
  rw [hrun]
  rcases postAs_bind _ _ _ _ _ with h | ⟨n, drawn, m, hdraw, hdrawn, hsign, hrun⟩
  · exact .inl (h.of_posts hlooked)
  refine .inr ⟨url, looked, n, drawn, m, hresolve, hdraw, hdrawn.trans hlooked, ?_⟩
  rw [hrun]
  rfl

theorem createOrder_eq (o : Order) :
    createOrder o = activeIdentity >>= fun a => endpoint Endpoint.newOrder.name >>= fun url =>
      payloadBytes (.newOrder o.identifiers) >>= fun body =>
        (post url body).given ⟨false, some a.id, none, none⟩ >>= fun r =>
          expect .created r >>= recordOrder a := rfl

/-- Creating an order up to the message that is sent. -/
theorem createOrder_run (s : Session) (o : Order) :
    Unposted s (createOrder o s)
    ∨ ∃ a url looked n drawn, ∃ m : SignedJws,
      s.table.active? = some a
        ∧ Connection.resolve Endpoint.newOrder.name s.connection = (.ok (some url), looked)
        ∧ Connection.consume looked = (.ok n, drawn)
        ∧ drawn.posts = s.connection.posts
        ∧ (∃ body, SignPlan.sign ⟨a.signer, .keyId a.id⟩ (some n) url body = .ok m)
        ∧ createOrder o s =
            (send (.post url Http.joseJson m.serialized) >>= fun r =>
              expect .created r >>= recordOrder a) { s with connection := drawn } := by
  rw [createOrder_eq]
  -- each step ends the call with nothing posted, or hands on what the next one needs
  rcases activeIdentity_bind _ _ with h | ⟨a, ha, hregistered, hrun⟩
  · exact .inl h
  rw [hrun]
  rcases endpoint_bind s _ _ with h | ⟨url, looked, hresolve, hlooked, hrun⟩
  · exact .inl h
  rw [hrun]
  rcases ofExcept_bind _ _ _ _ with h | ⟨body, hbody, hrun⟩
  · exact .inl (h.of_posts hlooked)
  -- the options name the account themselves, so that there is nothing to fill in
  have hplan : (fillDefaults s.table ⟨false, some a.id, none, none⟩).plan true
      = .ok ⟨a.signer, .keyId a.id⟩ :=
    SignOptions.plan_active ha hregistered rfl (.inr rfl) (.inl rfl)
  rw [payloadBytes, hrun, post_bind { s with connection := looked } rfl hplan rfl]
  rcases postAs_bind _ _ _ _ _ with h | ⟨n, drawn, m, hdraw, hdrawn, hsign, hrun⟩
  · exact .inl (h.of_posts hlooked)
  exact .inr ⟨a, url, looked, n, drawn, m, ha, hresolve, hdraw, hdrawn.trans hlooked,
    ⟨body, hsign⟩, hrun⟩

/-! ### After the answer -/

/-- A run that ends because the answer brings the nonce that is held, with no account changed. -/
def Refused {α : Type} (s : Session) (held : String) (out : Except SessionError α × Session) : Prop :=
  out.1 = .error (.nonce (.duplicate held)) ∧ out.2.table = s.table

/-- What becomes of a message, and of an answer with the status that it has to have. -/
theorem send_answered {α : Type} {s : Session} {name url n : String} {looked drawn : Connection}
    {m : SignedJws} {status : Http.Status} {out : Except SessionError α × Session}
    {commit : Http.Response → Operation α}
    (hresolve : Connection.resolve name s.connection = (.ok (some url), looked))
    (hdraw : Connection.consume looked = (.ok n, drawn))
    (hposts : drawn.posts = s.connection.posts) (hcommit : ∀ r, Silent (commit r))
    (hrun : out = (send (.post url Http.joseJson m.serialized) >>= fun r =>
      expect status r >>= commit) { s with connection := drawn }) :
    Answered s name out.2.connection (.post url Http.joseJson m.serialized)
        (drawn.server.respond (.post url Http.joseJson m.serialized)).1 drawn.nonce
      ∧ ∀ r, (drawn.server.respond (.post url Http.joseJson m.serialized)).1 = .ok r →
          r.status = status →
          (r.nonce? = some drawn.nonce → Refused s drawn.nonce out)
            ∧ (r.nonce? ≠ some drawn.nonce → out = commit r
                { s with connection := (Connection.Step.post url m.serialized).run drawn }) := by
  refine ⟨⟨url, looked, n, drawn, hresolve, hdraw, rfl, ?_, rfl⟩, fun r hanswer hstatus => ?_⟩
  · rw [hrun, connection_send_bind _ _ _ _ hcommit, posts_post, hposts]
  · rw [hrun, send_bind]
    -- the nonce is looked at first, the status only then
    refine ⟨fun hnonce => ?_, fun hnonce => ?_⟩
    · simp only [hanswer, hnonce, if_true]
      exact ⟨rfl, rfl⟩
    · simp only [hanswer, hnonce, if_false]
      exact expect_bind _ hstatus commit

/-- A run heeds what the server agrees to: it posts nothing; or one request, and an agreement about a value
has its effect, unless the answer brings the nonce that is held. -/
def Heeds {α β : Type} (s : Session) (name : String) (out : Except SessionError α × Session)
    (agreed : Http.Response → β → Prop) (effect : Http.Request → β → Prop) : Prop :=
  out.2.connection.posts = s.connection.posts
  ∨ ∃ q answer held, Answered s name out.2.connection q answer held
      ∧ ∀ r value, answer = .ok r → agreed r value →
          (r.nonce? = some held → Refused s held out) ∧ (r.nonce? ≠ some held → effect q value)

/-- The server has made something at a URL. -/
def Created (r : Http.Response) (location : String) : Prop :=
  r.status = .created ∧ r.location? = some location

/-- The account that is given back has the URL. -/
def Named (out : Except SessionError Account × Session) (location : String) : Prop :=
  ∃ b, out.1 = .ok b ∧ b.id = location

/-- An account with the identifier in whose name a request is signed has the URL among its orders. -/
def Recorded (after : Session) (q : Http.Request) (location : String) : Prop :=
  ∃ m id, Jws.parse q.body = .ok m ∧ m.header.kid = some id
    ∧ ∃ b ∈ after.table.accounts, b.id = id ∧ location ∈ b.orders

/-- The active account has another key and is otherwise the same, and the table of keys has it too. -/
def Rekeyed (s after : Session) (k : KeyPair) : Prop :=
  ∃ a, s.table.active? = some a ∧ after.table.active? = some { a with signer := k }
    ∧ after.table.keys.get? a.id = some k

variable (s : Session)

/-- An account that the server has made gets its URL, unless the answer is refused. -/
theorem createAccount_effect (a : Account) :
    Heeds s Endpoint.newAccount.name (createAccount a s) Created
      fun _ location => Named (createAccount a s) location := by
  rcases createAccount_run s a with h | ⟨url, looked, n, drawn, m, hresolve, hdraw, hposts, hrun⟩
  · exact .inl h.posts
  obtain ⟨hanswered, heffect⟩ :=
    send_answered hresolve hdraw hposts (nameAccount_silent a _) hrun
  refine .inr ⟨_, _, _, hanswered, fun r location hanswer ⟨hstatus, hlocation⟩ => ?_⟩
  obtain ⟨hrefused, hdone⟩ := heffect r hanswer hstatus
  refine ⟨hrefused, fun hnonce => ?_⟩
  rw [hdone hnonce, nameAccount, hlocation]
  exact ⟨_, rfl, rfl⟩

/-- An order that the server has made is recorded with the account that signed for it, unless the
answer is refused. -/
theorem createOrder_effect (o : Order) :
    Heeds s Endpoint.newOrder.name (createOrder o s) Created (Recorded (createOrder o s).2) := by
  rcases createOrder_run s o with h | ⟨a, url, looked, n, drawn, m, ha, hresolve, hdraw, hposts,
    ⟨body, hsign⟩, hrun⟩
  · exact .inl h.posts
  obtain ⟨hanswered, heffect⟩ :=
    send_answered hresolve hdraw hposts (recordOrder_silent a) hrun
  refine .inr ⟨_, _, _, hanswered, fun r location hanswer ⟨hstatus, hlocation⟩ => ?_⟩
  obtain ⟨hrefused, hdone⟩ := heffect r hanswer hstatus
  refine ⟨hrefused, fun hnonce => ?_⟩
  obtain ⟨hauthentic, -⟩ := SignPlan.authenticated hsign
  refine ⟨m.parsed, a.id, hauthentic.parsed, hauthentic.binding.2, ?_⟩
  rw [hdone hnonce, recordOrder, hlocation]
  -- the order is recorded before the body is looked at, so that the body does not matter
  show ∃ b ∈ ((described location r : Operation Order)
    { s with connection := _, table := s.table.recordOrder a.id location }).2.table.accounts, _
  rw [described_snd]
  exact AccountTable.mem_recordOrder (AccountTable.active?_mem ha) location

/-- A key that the server has replaced is replaced in the active account and in the table of keys,
unless the answer is refused. -/
theorem rollover_effect (k : KeyPair) :
    Heeds s Endpoint.keyChange.name (rollover k s) (fun r (_ : Unit) => r.status = .ok)
      fun _ _ => Rekeyed s (rollover k s).2 k := by
  rcases rollover_run s k with h | ⟨a, url, looked, oldKey, body, inner, n, drawn, m, ha, -, hresolve,
    -, -, -, hdraw, hposts, -, hrun⟩
  · exact .inl h.posts
  obtain ⟨hanswered, heffect⟩ :=
    send_answered hresolve hdraw hposts (fun _ => replaceKey_silent a k) hrun
  refine .inr ⟨_, _, _, hanswered, fun r _ hanswer hstatus => ?_⟩
  obtain ⟨hrefused, hdone⟩ := heffect r hanswer hstatus
  refine ⟨hrefused, fun hnonce => ⟨a, ha, ?_⟩⟩
  have hlater : ({ s with connection := (Connection.Step.post url m.serialized).run drawn }
      : Session).table.active? = some a := ha
  obtain ⟨table, hreplaced, hactive, hkey⟩ := replaceKey_ok hlater k
  rw [hdone hnonce, hreplaced]
  exact ⟨hactive, hkey⟩

/-! ### A server that makes an order -/

/-- A registered account. -/
def customer : Account :=
  { id := "https://ca/account/1", contact := [], signer := .earlier, orders := [] }

def ordered : Order := .new [.dns "example.org"]

/-- The answer by which an order is made, with the nonce that it brings. It has no body. -/
def made (nonce : String) : Http.Response :=
  ((Http.Response.ofCode 201).withHeader "location" "https://ca/order/1").withHeader
    Http.replayNonce nonce

/-- A session that holds the nonce `aaa`, with a server that gives out `bbb` next and then makes an
order. -/
def ordering (nonce : String) : Session where
  config := .default
  connection := {
    server := {
      pending := [
        ((.head, "https://ca/nonce"),
          (Http.Response.ofCode 200).withHeader Http.replayNonce "bbb"),
        ((.post, "https://ca/order"), made nonce)]
      requests := [] }
    directoryUrl := "https://ca/directory"
    directory := some [("newNonce", .string "https://ca/nonce"),
      ("newOrder", .string "https://ca/order")]
    nonce := "aaa" }
  table := AccountTable.empty.add customer true

/-- The request for the order is sent. -/
theorem ordering_run (nonce : String) :
    ∃ m : SignedJws, createOrder ordered (ordering nonce)
      = (send (.post "https://ca/order" Http.joseJson m.serialized) >>= fun r =>
          expect .created r >>= recordOrder customer)
        { ordering nonce with
          connection := (Connection.consume (ordering nonce).connection).2 } := by
  obtain ⟨body, hbody⟩ : ∃ body, (Payload.newOrder ordered.identifiers).toBytes = .ok body :=
    ⟨_, rfl⟩
  have hsigned : ∃ m, SignPlan.sign ⟨customer.signer, .keyId customer.id⟩ (some "aaa")
      "https://ca/order" body = .ok m := by
    rw [SignPlan.sign, Jws.signHeader_eq]
    exact ⟨_, rfl⟩
  obtain ⟨m, hsign⟩ := hsigned
  have hdraw : Connection.consume (ordering nonce).connection
      = (.ok "aaa", (Connection.consume (ordering nonce).connection).2) := rfl
  -- nothing that comes before the letter changes the session
  have hactive : activeIdentity (ordering nonce) = (.ok customer, ordering nonce) := rfl
  have hendpoint : endpoint Endpoint.newOrder.name (ordering nonce)
      = (.ok "https://ca/order", ordering nonce) := rfl
  have hpayload : payloadBytes (.newOrder ordered.identifiers) (ordering nonce)
      = (.ok body, ordering nonce) := by
    rw [payloadBytes, hbody]
    rfl
  have hplan : (fillDefaults (ordering nonce).table ⟨false, some customer.id, none, none⟩).plan true
      = .ok ⟨customer.signer, .keyId customer.id⟩ :=
    SignOptions.plan_active rfl rfl rfl (.inr rfl) (.inl rfl)
  refine ⟨m, ?_⟩
  rw [createOrder_eq, bind_ok hactive, bind_ok hendpoint, bind_ok hpayload,
    post_bind _ rfl hplan rfl, postAs_signed_bind _ hdraw hsign]

theorem ordering_answered (nonce : String) :
    ∃ q, Answered (ordering nonce) Endpoint.newOrder.name
      (createOrder ordered (ordering nonce)).2.connection q (.ok (made nonce)) "bbb" := by
  obtain ⟨m, hrun⟩ := ordering_run nonce
  refine ⟨.post "https://ca/order" Http.joseJson m.serialized, "https://ca/order",
    (ordering nonce).connection, "aaa", (Connection.consume (ordering nonce).connection).2,
    rfl, rfl, rfl, ?_, rfl⟩
  rw [hrun, connection_send_bind _ _ _ _ (recordOrder_silent customer), posts_post,
    Connection.posts_consume]

/-! ### What is not lost -/

/-- What the server has agreed to is done, whatever else the answer says, unless the answer brings
the nonce that is held: an account gets the URL that the server has given it, an order is recorded
with the account that signed for it even if it cannot be read, and a new key takes the place of the
old one in the account and in the table. An answer that brings the nonce that is held ends the
operation and changes no account. -/
theorem acknowledged_effects (s : Session) :
    (∀ a, Heeds s Endpoint.newAccount.name (createAccount a s) Created
      fun _ location => Named (createAccount a s) location)
    ∧ (∀ o, Heeds s Endpoint.newOrder.name (createOrder o s) Created (Recorded (createOrder o s).2))
    ∧ (∀ k, Heeds s Endpoint.keyChange.name (rollover k s) (fun r (_ : Unit) => r.status = .ok)
      fun _ _ => Rekeyed s (rollover k s).2 k) :=
  ⟨createAccount_effect s, createOrder_effect s, rollover_effect s⟩

/-- An order that is made with a new nonce is recorded, even though it cannot be read. -/
theorem ordering_recorded :
    ∃ b ∈ (createOrder ordered (ordering "ccc")).2.table.accounts, "https://ca/order/1" ∈ b.orders := by
  obtain ⟨q, hanswered⟩ := ordering_answered "ccc"
  rcases (acknowledged_effects (ordering "ccc")).2.1 ordered with h | ⟨q', answer, held, hanswered', h⟩
  · exact absurd h hanswered.posts_ne
  · obtain ⟨rfl, rfl, rfl⟩ := hanswered.unique hanswered'
    have hlocation : (made "ccc").location? = some "https://ca/order/1" := by decide +kernel
    obtain ⟨-, hrecorded⟩ := h (made "ccc") "https://ca/order/1" rfl ⟨rfl, hlocation⟩
    obtain ⟨m, id, -, -, b, hb, -, horder⟩ := hrecorded (by decide +kernel)
    exact ⟨b, hb, horder⟩

/-- An order that is made with the nonce that is held is not recorded. -/
theorem ordering_lost :
    ¬ ∀ (s : Session) (o : Order) (q : Http.Request) (r : Http.Response) (held location : String),
      Answered s Endpoint.newOrder.name (createOrder o s).2.connection q (.ok r) held →
      r.status = .created → r.location? = some location →
        ∃ b ∈ (createOrder o s).2.table.accounts, location ∈ b.orders := by
  intro hall
  obtain ⟨q, hanswered⟩ := ordering_answered "bbb"
  have hlocation : (made "bbb").location? = some "https://ca/order/1" := by decide +kernel
  have htable : (createOrder ordered (ordering "bbb")).2.table = (ordering "bbb").table := by
    rcases createOrder_effect (ordering "bbb") ordered with h | ⟨q', answer, held, hanswered', h⟩
    · exact absurd h hanswered.posts_ne
    · obtain ⟨rfl, rfl, rfl⟩ := hanswered.unique hanswered'
      obtain ⟨hrefused, -⟩ := h (made "bbb") "https://ca/order/1" rfl ⟨rfl, hlocation⟩
      exact (hrefused (by decide +kernel)).2
  obtain ⟨b, hb, horder⟩ := hall _ _ q _ _ _ hanswered rfl hlocation
  rw [htable] at hb
  obtain rfl : b = customer := List.mem_singleton.1 hb
  cases horder

end Session

end Acme
