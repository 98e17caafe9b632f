import Acme.Proofs.Session.Changes

/-!
# Where an order is recorded

The active account signs for an order, and the order is recorded for the identifier of that account.
If more than one account has the identifier it is the first of them that gets the order, which need not
be the active one (`createOrder_records`).
-/

namespace Acme

namespace AccountTable

variable {t : AccountTable} {a : Account} {index : Nat}

/-- The first account with an identifier stands at a place. -/
def FirstAt (t : AccountTable) (id : String) (place : Nat) : Prop :=
  (∃ b, t.accounts[place]? = some b ∧ b.id = id)
    ∧ ∀ j < place, ∀ b, t.accounts[j]? = some b → b.id ≠ id

theorem FirstAt.unique {id : String} {i j : Nat} (hi : t.FirstAt id i) (hj : t.FirstAt id j) :
    i = j := by
  obtain ⟨⟨b, hb, hid⟩, hbefore⟩ := hi
  obtain ⟨⟨c, hc, hid'⟩, hbefore'⟩ := hj
  rcases Nat.lt_trichotomy i j with hlt | heq | hgt
  · exact absurd hid (hbefore' i hlt b hb)
  · exact heq
  · exact absurd hid' (hbefore j hgt c hc)

/-- An order that is recorded for an account of the table goes to the first with its identifier. -/
theorem exists_firstAt (h : t.accounts[index]? = some a) :
    ∃ place ≤ index, t.FirstAt a.id place ∧ ∀ url, t.recordOrder a.id url
      = t.modify place fun b => { b with orders := b.orders ++ [url] } := by
  cases hfind : t.accounts.findIdx? (·.id == a.id) with
  | none =>
    have hother := List.findIdx?_eq_none_iff.1 hfind a (List.mem_of_getElem? h)
    simp at hother
  | some place =>
    obtain ⟨hlength, hid, hbefore⟩ := List.findIdx?_eq_some_iff_getElem.1 hfind
    have hfirst : t.FirstAt a.id place := by
      refine ⟨⟨_, List.getElem?_eq_getElem hlength, eq_of_beq hid⟩, fun j hj b hb => ?_⟩
      obtain ⟨hj', rfl⟩ := List.getElem?_eq_some_iff.1 hb
      simpa using hbefore j hj
    refine ⟨place, ?_, hfirst, fun url => by rw [recordOrder, hfind]⟩
    by_contra hlate
    exact hfirst.2 index (by omega) a h rfl

theorem active?_modify_of_ne (hactive : t.active = some index) {place : Nat} (h : place ≠ index)
    (change : Account → Account) : (t.modify place change).active? = t.active? := by
  show t.active.bind _ = t.active.bind _
  rw [hactive]
  exact List.getElem?_modify_ne change _ h

/-- An account that is added as the active one is the active one. -/
theorem active?_add (t : AccountTable) (a : Account) : (t.add a true).active? = some a := by
  rw [active?, active_add, accounts_add]
  exact List.getElem?_concat_length

end AccountTable

namespace Session

open Operation Stateful

/-- An order that is created is read from the answer that the active account has got to its request.
Its URL is added to the orders of the first account that has the identifier of the active one, and
nothing else changes in the table. So the active account has the order if no account before it has the
same identifier, and else it is as it was. -/
theorem createOrder_records (s : Session) (o o' : Order) (h : (createOrder o s).1 = .ok o') :
    ∃ index a q r held location,
      s.table.active = some index ∧ s.table.accounts[index]? = some a
        ∧ Answered s Endpoint.newOrder.name (createOrder o s).2.connection q (.ok r) held
        ∧ (∃ m, Jws.parse q.body = .ok m ∧ m.header.kid = some a.id)
        ∧ r.status = .created ∧ r.location? = some location
        ∧ Resource.ofBody? location r.body = some o'
        ∧ ∃ place ≤ index, s.table.FirstAt a.id place
          ∧ (createOrder o s).2.table
            = s.table.modify place (fun b => { b with orders := b.orders ++ [location] })
          ∧ (place = index →
            (createOrder o s).2.table.active? = some { a with orders := a.orders ++ [location] })
          ∧ (place ≠ index → (createOrder o s).2.table.active? = some a) := by
  rcases createOrder_change s o with ⟨hfailed, -⟩
    | ⟨a, q, r, held, location, ha, hanswered, hsigned, hstatus, hlocation, htable, hread⟩
  · rw [h] at hfailed
    cases hfailed
  -- the account that signs is found by its place, the one that gets the order by its identifier
  obtain ⟨index, hactive, hindex⟩ := Option.bind_eq_some_iff.mp ha
  obtain ⟨place, hle, hfirst, hrecorded⟩ := AccountTable.exists_firstAt hindex
  have hmodified : (createOrder o s).2.table
      = s.table.modify place fun b => { b with orders := b.orders ++ [location] } :=
    htable.trans (hrecorded location)
  refine ⟨index, a, q, r, held, location, hactive, hindex, hanswered, hsigned, hstatus, hlocation,
    hread o' h, place, hle, hfirst, hmodified, ?_, fun hne => ?_⟩
  · rintro rfl
    rw [hmodified]
    exact AccountTable.active?_modify hactive ha _
  · rw [hmodified, AccountTable.active?_modify_of_ne hactive hne]
    exact ha

/-- An order is created if there is a registered account that can sign, the directory has the URL, a
nonce can be drawn, and the server agrees with a location, a new nonce and an order. -/
theorem createOrder_created {s : Session} {o o' : Order} {a : Account} {url n location : String}
    {looked drawn : Connection} {body : Bytes} {r : Http.Response}
    (ha : s.table.active? = some a) (hregistered : a.isRegistered)
    (hresolve : Connection.resolve Endpoint.newOrder.name s.connection = (.ok (some url), looked))
    (hdraw : Connection.consume looked = (.ok n, drawn))
    (hbody : (Payload.newOrder o.identifiers).toBytes = .ok body)
    (hsigner : ∀ b, ∃ signature, a.signer.sign b = .ok signature)
    (hanswer : ∀ b, (drawn.server.respond (.post url Http.joseJson b)).1 = .ok r)
    (hstatus : r.status = .created) (hnonce : r.nonce? ≠ some drawn.nonce)
    (hlocation : r.location? = some location) (hread : Resource.ofBody? location r.body = some o') :
    (createOrder o s).1 = .ok o' := by
  obtain ⟨m, hsign⟩ : ∃ m, SignPlan.sign ⟨a.signer, .keyId a.id⟩ (some n) url body = .ok m :=
    Jws.exists_signHeader hsigner _ _
  -- each step up to the letter succeeds by one of the conditions
  have hactive : activeIdentity s = (.ok a, s) := activeIdentity_ok ha hregistered
  have hpayload : payloadBytes (.newOrder o.identifiers) { s with connection := looked }
      = (.ok body, { s with connection := looked }) := by
    rw [payloadBytes, hbody]
    rfl
  have hplan : (fillDefaults s.table ⟨false, some a.id, none, none⟩).plan true
      = .ok ⟨a.signer, .keyId a.id⟩ :=
    SignOptions.plan_active ha hregistered rfl (.inr rfl) (.inl rfl)
  rw [createOrder_eq, bind_ok hactive, bind_ok (endpoint_ok hresolve), bind_ok hpayload,
    post_bind { s with connection := looked } rfl hplan rfl,
    postAs_signed_bind { s with connection := looked } hdraw hsign, send_bind]
  -- the answer is passed on, as its nonce is new, and then it is read
  simp only [hanswer, hnonce, if_false]
  rw [expect_bind _ hstatus, recordOrder, hlocation]
  show ((described location r : Operation Order) _).1 = _
  rw [described, hread]
  rfl

/-! ### Two accounts with one identifier -/

/-- The answer by which an order is made, with the order in it. -/
def placed : Http.Response := (made "ccc").withJson ordered.toJson

/-- A session with accounts of which the last is active, and with a server that makes an order. -/
def reordering (accounts : List Account) : Session where
  config := .default
  connection := { (ordering "ccc").connection with
    server := {
      pending := [
        ((.head, "https://ca/nonce"),
          (Http.Response.ofCode 200).withHeader Http.replayNonce "bbb"),
        ((.post, "https://ca/order"), placed)]
      requests := [] } }
  table := accounts.foldl (·.add · true) .empty

def stranger : Account := { customer with id := "https://ca/account/2" }

/-- The account of the customer once more, as it was when it had a contact. -/
def returning : Account := { customer with contact := ["mailto:customer@example.org"] }

def placedOrder : Order := { ordered with id := "https://ca/order/1" }

/-- The order is made, whoever the accounts are, if the last one can sign for it. -/
theorem reordering_run (before : List Account) {a : Account} (hregistered : a.isRegistered)
    (hsigner : a.signer = customer.signer) :
    (createOrder ordered (reordering (before ++ [a]))).1 = .ok placedOrder := by
  have hactive : (reordering (before ++ [a])).table.active? = some a := by
    rw [reordering, List.foldl_append]
    exact AccountTable.active?_add _ a
  obtain ⟨body, hbody⟩ : ∃ body, (Payload.newOrder ordered.identifiers).toBytes = .ok body :=
    ⟨_, rfl⟩
  let connection := (reordering (before ++ [a])).connection
  have hresolve : Connection.resolve Endpoint.newOrder.name connection
      = (.ok (some "https://ca/order"), connection) := rfl
  -- the nonce that comes with the answer is neither the one drawn nor the one held
  have hdraw : Connection.consume connection = (.ok "aaa", (Connection.consume connection).2) := rfl
  have hheld : (Connection.consume connection).2.nonce = "bbb" := rfl
  have hnonce : placed.nonce? ≠ some (Connection.consume connection).2.nonce := by
    rw [hheld]
    decide +kernel
  have hlocation : placed.location? = some "https://ca/order/1" := by decide +kernel
  have hread : Resource.ofBody? "https://ca/order/1" placed.body = some placedOrder := by
    decide +kernel
  have hsigns (b : Bytes) : ∃ signature, a.signer.sign b = .ok signature := by
    rw [hsigner]
    exact ⟨_, rfl⟩
  exact createOrder_created hactive hregistered hresolve hdraw hbody hsigns (fun b => rfl) rfl hnonce
    hlocation hread

theorem reordering_recorded :
    ∃ location, (createOrder ordered (reordering [stranger, customer])).2.table.active?
      = some { customer with orders := [location] } := by
  have hrun : (createOrder ordered (reordering [stranger, customer])).1 = .ok placedOrder :=
    reordering_run [stranger] rfl rfl
  obtain ⟨index, a, q, r, held, location, hactive, hindex, -, -, -, -, -, place, hle, hfirst, -, hown,
    -⟩ := createOrder_records _ _ _ hrun
  obtain rfl : 1 = index := Option.some.inj hactive
  obtain rfl : customer = a := Option.some.inj hindex
  -- the account before it has another identifier
  have hplace : place = 1 := hfirst.unique ⟨⟨customer, rfl, rfl⟩, fun j hj b hb => by
    obtain rfl : j = 0 := by omega
    obtain rfl : stranger = b := Option.some.inj hb
    simp [stranger, customer]⟩
  exact ⟨location, hown hplace⟩

/-- If two accounts have one identifier and the second is active, the order is not with the active
account. -/
theorem reordering_misplaced :
    ¬ ∀ (s : Session) (added : List (Account × Bool)) (o o' : Order),
      s.table = added.foldl (fun t x => t.add x.1 x.2) .empty → (createOrder o s).1 = .ok o' →
        ∃ a location, s.table.active? = some a
          ∧ (createOrder o s).2.table.active? = some { a with orders := a.orders ++ [location] } := by
  intro hall
  have hrun : (createOrder ordered (reordering [customer, returning])).1 = .ok placedOrder :=
    reordering_run [customer] rfl rfl
  have hafter : (createOrder ordered (reordering [customer, returning])).2.table.active?
      = some returning := by
    rcases createOrder_change (reordering [customer, returning]) ordered with ⟨hfailed, -⟩
      | ⟨a, q, r, held, location, ha, -, -, -, -, htable, -⟩
    · rw [hrun] at hfailed
      cases hfailed
    · obtain rfl : returning = a := Option.some.inj ha
      -- the place that is found is that of the first account
      rw [htable]
      rfl
  obtain ⟨a, location, -, hrecorded⟩ :=
    hall (reordering [customer, returning]) [(customer, true), (returning, true)] _ _ rfl hrun
  have horders : returning.orders = a.orders ++ [location] :=
    congrArg Account.orders (Option.some.inj (hafter.symm.trans hrecorded))
  simp [returning, customer] at horders

end Session

end Acme
