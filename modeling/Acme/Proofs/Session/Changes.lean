import Acme.Proofs.Session.Effects
import Acme.Proofs.Session.Faults

/-!
# What calls change

The accounts of a session change in six ways (`AccountTable.Change`). Which of them a call makes depends
on the accounts and on whether it succeeds (`Call.Makes`), and what it leaves behind is the table with
that change (`Call.exists_change`). All that is known about accounts over whole runs follows from this;
no operation has to be looked into again.
-/

namespace Acme

open Stateful

variable {α β ω : Type}

/-! ### Changes -/

/-- A change to the accounts of a session. -/
inductive AccountTable.Change
  | none
  | added (a : Account) (activate : Bool)
  /-- The account at a place is the active one from now on. -/
  | activated (index : Nat)
  | keyAdded (name : String) (k : KeyPair)
  /-- The account at a place, which has this identifier, has another key. -/
  | rekeyed (index : Nat) (id : String) (k : KeyPair)
  | contacted (index : Nat) (contact : List String)
  /-- An order is recorded for this identifier. -/
  | ordered (id url : String)

namespace AccountTable.Change

/-- The table with a change. -/
def apply (t : AccountTable) : Change → AccountTable
  | none => t
  | added a activate => t.add a activate
  | activated index => { t with active := some index }
  | keyAdded name k => t.addKey name k
  | rekeyed index id k => (t.addKey id k).modify index fun a => { a with signer := k }
  | contacted index contact => t.modify index fun a => { a with contact }
  | ordered id url => t.recordOrder id url

end AccountTable.Change

namespace AccountTable

variable (t : AccountTable) (a : Account) (activate : Bool)

/-! An account is added after the others, whether or not it has a key to be filed. -/

@[simp] theorem accounts_add : (t.add a activate).accounts = t.accounts ++ [a] := by
  rw [add]
  split <;> rfl

theorem keys_add :
    (t.add a activate).keys = if a.isRegistered then t.keys.insert a.id a.signer else t.keys := by
  rw [add]
  split <;> rfl

theorem active_add :
    (t.add a activate).active = if activate then some t.accounts.length else t.active := by
  rw [add]
  split <;> rfl

end AccountTable

namespace Call

open AccountTable (Change)

/-- The changes that a call may make to a table of accounts, if it succeeds and if it does not. -/
def Makes (t : AccountTable) : Call β → (succeeds : Bool) → Change → Prop
  | addAccount a activate, _, c => c = .added a activate
  | setActiveAccount index, true, c => index < t.accounts.length ∧ c = .activated index
  | addKey name k, _, c => c = .keyAdded name k
  | rollover k, true, c =>
    ∃ index a, t.active = some index ∧ t.accounts[index]? = some a ∧ a.isRegistered
      ∧ c = .rekeyed index a.id k
  | updateAccount contact, true, c =>
    ∃ index, t.active = some index ∧ c = .contacted index (contact.map Payload.normalContact)
  -- an order may have been recorded although the call fails
  | createOrder, succeeds, c =>
    (succeeds = false ∧ c = .none) ∨ ∃ a url, t.active? = some a ∧ c = .ordered a.id url
  | _, _, c => c = .none

end Call

/-! ### Parts of operations -/

namespace Operation

variable {s : Session}

theorem Decided.table {x : Operation α} (h : Decided s x) : (x s).2.table = s.table := by
  rcases h with hstuck | hsure
  · obtain ⟨e, hrun⟩ := hstuck s.connection
    change x s = _ at hrun
    rw [hrun]
    rfl
  · rcases hsure s.connection with ⟨e, d, -, hrun⟩ | ⟨a, d, -, hrun⟩ <;>
    · change x s = _ at hrun
      rw [hrun]
      rfl

end Operation

namespace Session

open Operation
open AccountTable (Change)

/-! ### Signing -/

theorem sign_decided {s : Session} (o : SignOptions) (url : String) (payload : Bytes) :
    Decided s ((sign url payload).given o) := by
  cases hplan : (fillDefaults s.table o).plan true with
  | error e => exact .inl (sign_stuck hplan url payload).given
  | ok p => exact .inr (sign_sure hplan url payload)

/-! ### Operations that change accounts -/

/-- After the message has been sent the rest is done, or the operation fails and changes no account. -/
theorem sent_cases {s : Session} {drawn : Connection} {url : String} {body : Bytes}
    {status : Http.Status} {commit : Http.Response → Operation α}
    {out : Except SessionError α × Session}
    (hrun : out = (send (.post url Http.joseJson body) >>= fun r => expect status r >>= commit)
      { s with connection := drawn }) :
    (out.1.isOk = false ∧ out.2.table = s.table)
      ∨ ∃ r, (drawn.server.respond (.post url Http.joseJson body)).1 = .ok r ∧ r.status = status
        ∧ out = commit r { s with connection := (Connection.Step.post url body).run drawn } := by
  rcases send_bind_cases { s with connection := drawn } url body status commit
    with ⟨e, hsent⟩ | ⟨r, hanswer, hstatus, hsent⟩
  · left
    rw [hrun, hsent]
    exact ⟨rfl, rfl⟩
  · exact .inr ⟨r, hanswer, hstatus, hrun.trans hsent⟩

theorem replaceKey_apply {s : Session} {index : Nat} (h : s.table.active = some index) (a : Account)
    (k : KeyPair) :
    replaceKey a k s = (.ok ⟨⟩, { s with table := (Change.rekeyed index a.id k).apply s.table }) := by
  rw [replaceKey, bind_ok (get_apply s)]
  simp only [h]
  rfl

theorem replaceContact_apply {s : Session} {index : Nat} {a : Account}
    (h : s.table.active = some index) (ha : s.table.accounts[index]? = some a) (contact : List String) :
    ∃ b, replaceContact contact s
      = (.ok b, { s with
          table := (Change.contacted index (contact.map Payload.normalContact)).apply s.table }) := by
  have hactive : s.table.active? = some a := by
    rw [AccountTable.active?, h]
    exact ha
  have hmodified := AccountTable.active?_modify h hactive
    fun a => { a with contact := contact.map Payload.normalContact }
  have hset (change : AccountTable → AccountTable) :
      modifyTable change s = (.ok ⟨⟩, { s with table := change s.table }) := rfl
  refine ⟨{ a with contact := contact.map Payload.normalContact }, ?_⟩
  rw [replaceContact, bind_ok (get_apply s)]
  simp only [h]
  rw [bind_ok (hset _), bind_ok (get_apply _)]
  simp only [hmodified]
  rfl

/-- Recording an order never gives the record back, whether or not the body can be read. -/
theorem recordOrder_apply {s : Session} {r : Http.Response} {location : String}
    (h : r.location? = some location) (a : Account) :
    (recordOrder a r s).2.table = (Change.ordered a.id location).apply s.table
      ∧ ∀ o, (recordOrder a r s).1 = .ok o → Resource.ofBody? location r.body = some o := by
  rw [recordOrder, h]
  let recorded : Session := { s with table := s.table.recordOrder a.id location }
  show ((described location r : Operation Order) recorded).2.table = _
    ∧ ∀ o, ((described location r : Operation Order) recorded).1 = .ok o → _
  refine ⟨by rw [described_snd]; rfl, fun o hread => ?_⟩
  rw [described] at hread
  cases hbody : (Resource.ofBody? location r.body : Option Order) with
  | none =>
    rw [hbody] at hread
    cases hread
  | some o' =>
    rw [hbody] at hread
    cases hread
    rfl

variable (s : Session)

theorem rollover_change (k : KeyPair) :
    ((rollover k s).1.isOk = false ∧ (rollover k s).2.table = s.table)
      ∨ (rollover k s).1.isOk = true ∧ ∃ index a, s.table.active = some index
        ∧ s.table.accounts[index]? = some a ∧ a.isRegistered
        ∧ (rollover k s).2.table = (Change.rekeyed index a.id k).apply s.table := by
  rcases rollover_run s k with ⟨e, c, hrun, -⟩ | ⟨a, url, looked, oldKey, body, inner, n, drawn, m, ha,
    hregistered, -, -, -, -, -, -, -, hrun⟩
  · left
    rw [hrun]
    exact ⟨rfl, rfl⟩
  · rcases sent_cases hrun with hfailed | ⟨r, -, -, hdone⟩
    · exact .inl hfailed
    · right
      obtain ⟨index, hactive, hindex⟩ := Option.bind_eq_some_iff.mp ha
      have hreplaced := replaceKey_apply
        (s := { s with connection := (Connection.Step.post url m.serialized).run drawn }) hactive a k
      rw [hdone.trans hreplaced]
      exact ⟨rfl, index, a, hactive, hindex, hregistered, rfl⟩

theorem setActiveAccount_change (index : Nat) :
    ((setActiveAccount index s).1.isOk = false ∧ (setActiveAccount index s).2.table = s.table)
      ∨ (setActiveAccount index s).1.isOk = true ∧ index < s.table.accounts.length
        ∧ (setActiveAccount index s).2.table = (Change.activated index).apply s.table := by
  rw [setActiveAccount, bind_ok (get_apply s)]
  split
  · exact .inl ⟨rfl, rfl⟩
  · exact .inr ⟨rfl, by omega, rfl⟩

theorem updateAccount_eq (contact : List String) :
    updateAccount contact = activeIdentity >>= fun a => payloadBytes (.forUpdateAccount contact) >>=
      fun body => (post a.id body).given noOptions >>= fun r =>
        expect .ok r >>= fun _ => replaceContact contact := rfl

/-- Changing the contact up to the message that is sent. -/
theorem updateAccount_run (contact : List String) :
    Unposted s (updateAccount contact s)
    ∨ ∃ a drawn, ∃ m : SignedJws, s.table.active? = some a
        ∧ updateAccount contact s =
            (send (.post a.id Http.joseJson m.serialized) >>= fun r =>
              expect .ok r >>= fun _ => replaceContact contact) { s with connection := drawn } := by
  rw [updateAccount_eq]
  rcases activeIdentity_bind _ _ with h | ⟨a, ha, hregistered, hrun⟩
  · exact .inl h
  rw [hrun]
  rcases ofExcept_bind _ _ _ _ with h | ⟨body, -, hrun⟩
  · exact .inl h
  rw [payloadBytes, hrun,
    post_bind s rfl (SignOptions.plan_active ha hregistered rfl (.inl rfl) (.inl rfl)) rfl]
  rcases postAs_bind _ _ _ _ _ with h | ⟨n, drawn, m, -, -, -, hrun⟩
  · exact .inl h
  exact .inr ⟨a, drawn, m, ha, hrun⟩

theorem updateAccount_change (contact : List String) :
    ((updateAccount contact s).1.isOk = false ∧ (updateAccount contact s).2.table = s.table)
      ∨ (updateAccount contact s).1.isOk = true ∧ ∃ index, s.table.active = some index
        ∧ (updateAccount contact s).2.table
          = (Change.contacted index (contact.map Payload.normalContact)).apply s.table := by
  rcases updateAccount_run s contact with ⟨e, c, hrun, -⟩ | ⟨a, drawn, m, ha, hrun⟩
  · left
    rw [hrun]
    exact ⟨rfl, rfl⟩
  · rcases sent_cases hrun with hfailed | ⟨r, -, -, hdone⟩
    · exact .inl hfailed
    · right
      obtain ⟨index, hactive, hindex⟩ := Option.bind_eq_some_iff.mp ha
      obtain ⟨b, hreplaced⟩ := replaceContact_apply
        (s := { s with connection := (Connection.Step.post a.id m.serialized).run drawn })
        hactive hindex contact
      rw [hdone.trans hreplaced]
      exact ⟨rfl, index, hactive, rfl⟩

/-- An order is recorded for the account that has signed for it, and for no other reason than the
answer to that. -/
theorem createOrder_change (o : Order) :
    ((createOrder o s).1.isOk = false ∧ (createOrder o s).2.table = s.table)
      ∨ ∃ a q r held location, s.table.active? = some a
        ∧ Answered s Endpoint.newOrder.name (createOrder o s).2.connection q (.ok r) held
        ∧ (∃ m, Jws.parse q.body = .ok m ∧ m.header.kid = some a.id)
        ∧ r.status = .created ∧ r.location? = some location
        ∧ (createOrder o s).2.table = (Change.ordered a.id location).apply s.table
        ∧ ∀ o', (createOrder o s).1 = .ok o' → Resource.ofBody? location r.body = some o' := by
  rcases createOrder_run s o with ⟨e, c, hrun, -⟩
    | ⟨a, url, looked, n, drawn, m, ha, hresolve, hdraw, hposts, ⟨body, hsign⟩, hrun⟩
  · left
    rw [hrun]
    exact ⟨rfl, rfl⟩
  obtain ⟨hanswered, -⟩ :=
    send_answered hresolve hdraw hposts (recordOrder_silent a) hrun
  rcases sent_cases hrun with hfailed | ⟨r, hanswer, hstatus, hdone⟩
  · exact .inl hfailed
  -- the server has agreed; without a location there is nothing to record
  cases hlocation : r.location? with
  | none =>
    left
    rw [hdone, recordOrder, hlocation]
    exact ⟨rfl, rfl⟩
  | some location =>
    right
    obtain ⟨hauthentic, -⟩ := SignPlan.authenticated hsign
    obtain ⟨htable, hread⟩ := recordOrder_apply
      (s := { s with connection := (Connection.Step.post url m.serialized).run drawn }) hlocation a
    rw [hanswer] at hanswered
    refine ⟨a, _, r, _, location, ha, hanswered, ⟨m.parsed, hauthentic.parsed, hauthentic.binding.2⟩,
      hstatus, hlocation, ?_, ?_⟩
    · rw [hdone]
      exact htable
    · rw [hdone]
      exact hread

end Session

namespace Call

open Operation Session
open AccountTable (Change)

/-- Nonces that options bring of their own do not change the accounts either. -/
theorem table_neutral {call : Call β} (h : call.Neutral) (b : β) (s : Session) :
    (call.run b s).2.table = s.table := by
  by_cases hsourceless : call.nonces? b = none
  · exact (does_neutral h hsourceless s.table s rfl).2.1
  · cases call with
    | sign url payload =>
      rw [run, OperationOn.bind_pure_snd]
      exact (sign_decided b url payload).table
    | post url payload =>
      rw [run, OperationOn.bind_pure_snd]
      exact (post_decided b url payload).table
    | _ => exact (hsourceless rfl).elim

/-- What a call leaves behind is the table with a change that the call may make. -/
theorem exists_change (call : Call β) (b : β) (s : Session) :
    ∃ c, call.Makes s.table (call.run b s).1.1.isOk c ∧ (call.run b s).2.table = c.apply s.table := by
  by_cases hneutral : call.Neutral
  · refine ⟨.none, ?_, table_neutral hneutral b s⟩
    cases call <;> first | exact hneutral.elim | rfl
  cases call with
  -- two of these cannot fail
  | addAccount a activate => exact ⟨_, rfl, rfl⟩
  | addKey name k => exact ⟨_, rfl, rfl⟩
  | setActiveAccount index =>
    rw [run, alone_snd, alone_isOk]
    rcases setActiveAccount_change s index with ⟨hfailed, htable⟩ | ⟨hdone, hindex, htable⟩
    · exact ⟨.none, hfailed ▸ rfl, htable⟩
    · exact ⟨_, hdone ▸ ⟨hindex, rfl⟩, htable⟩
  | updateAccount contact =>
    rw [run, alone_snd, alone_isOk]
    rcases updateAccount_change s contact with ⟨hfailed, htable⟩ | ⟨hdone, index, hactive, htable⟩
    · exact ⟨.none, hfailed ▸ rfl, htable⟩
    · exact ⟨_, hdone ▸ ⟨index, hactive, rfl⟩, htable⟩
  | rollover k =>
    rw [run, alone_snd, alone_isOk]
    rcases rollover_change s k with ⟨hfailed, htable⟩
      | ⟨hdone, index, a, hactive, hindex, hregistered, htable⟩
    · exact ⟨.none, hfailed ▸ rfl, htable⟩
    · exact ⟨_, hdone ▸ ⟨index, a, hactive, hindex, hregistered, rfl⟩, htable⟩
  | createOrder =>
    rw [run, inPlace_snd, inPlace_isOk]
    rcases createOrder_change s b with ⟨hfailed, htable⟩
      | ⟨a, q, r, held, location, hactive, -, -, -, -, htable, -⟩
    · exact ⟨.none, .inl ⟨hfailed, rfl⟩, htable⟩
    · exact ⟨_, .inr ⟨a, location, hactive, rfl⟩, htable⟩
  | _ => exact (hneutral trivial).elim

end Call
end Acme
