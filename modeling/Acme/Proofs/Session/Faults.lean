import Acme.Proofs.Jws.RoundTrip
import Acme.Proofs.Session.Clean

/-!
# Errors of configuration

An error of configuration comes before anything has happened: the session and the caller's object are
as they were, but that the directory may have been fetched (`Call.config_error`). Nothing later can
raise one, since what the configuration, the accounts and the options say does not change on the way.

All operations but one fail cleanly; creating an order does so up to where the order is recorded
(`Session.orderAnswer`).
-/

namespace Acme

open Stateful

variable {α β : Type}

theorem SignPlan.sign_fault {p : SignPlan} {nonce : Option String} {url : String} {payload : Bytes}
    {e : SignError} (h : p.sign nonce url payload = .error e) : e.isConfig = false := by
  rw [sign, Jws.signHeader_eq] at h
  split at h
  · cases h
  · cases h
    rfl

namespace Session

open Operation

variable {s : Session}

/-! ### What requests say -/

theorem activeIdentity_still :
    Still s activeIdentity fun a => s.table.active? = some a ∧ a.isRegistered := by
  refine Still.get.bind fun s' hs' => ?_
  rw [hs'.1]
  cases s.table.active? with
  | none => exact .throw _
  | some a =>
    simp only []
    split
    · exact .throw_bind _ _
    · rename_i hregistered
      exact .pure ⟨rfl, by simpa using hregistered⟩

theorem payloadBytes_still (p : Payload) : Still s (payloadBytes p) fun _ => True :=
  .ofExcept _ _

/-- The directory may have to be fetched first. -/
theorem endpoint_cases (name : String) (c : Connection) :
    ∃ d, Connection.Looked c d ∧
      ((∃ e, endpoint name (s.over c) = (.error e, s.over d))
        ∨ ∃ url, endpoint name (s.over c) = (.ok url, s.over d)) := by
  refine ⟨(Connection.resolve name c).2, Connection.resolve_looked c name, ?_⟩
  rw [endpoint_apply]
  rcases (Connection.resolve name (s.over c).connection).1 with e | _ | url
  · exact .inl ⟨_, rfl⟩
  · exact .inl ⟨_, rfl⟩
  · exact .inr ⟨_, rfl⟩

theorem endpoint_clean (name : String) : Clean s Connection.Looked (endpoint name) := by
  intro c e _
  obtain ⟨d, hlooked, ⟨e', hrun⟩ | ⟨url, hrun⟩⟩ := endpoint_cases name c <;>
  · rw [hrun]
    exact ⟨d, rfl, fun _ => hlooked⟩

/-- After that it is not fetched again. -/
theorem endpoint_bind_clean {name : String} {f : String → Operation β}
    (hf : ∀ url, Clean s Eq (f url)) : Clean s Connection.Looked (endpoint name >>= f) := by
  intro c e
  obtain ⟨d, hlooked, ⟨e', hrun⟩ | ⟨url, hrun⟩⟩ := endpoint_cases name c
  · rw [bind_error hrun]
    exact fun _ => ⟨d, rfl, fun _ => hlooked⟩
  · rw [bind_ok hrun]
    intro he
    obtain ⟨d', hstate, hnear⟩ := hf url d e he
    exact ⟨d', hstate, fun hconfig => hnear hconfig ▸ hlooked⟩

theorem send_sure (q : Http.Request) : Sure s (send q) fun _ => True := by
  refine (Sure.exchange _ fun _ => rfl).bind fun r _ => ?_
  exact (Sure.exchange _ fun _ => rfl).bind fun _ _ => .pure trivial

theorem expect_sure (status : Http.Status) (r : Http.Response) : Sure s (expect status r) fun _ => True := by
  unfold expect
  split
  · exact .pure trivial
  · exact .throw rfl

theorem drawNonce_sure : OperationOn.Sure s drawNonce := by
  intro o
  cases hnonces : o.nonces with
  | none =>
    have hrun : drawNonce.given o = Operation.exchange (.sign <| .nonce ·) Connection.consume := by
      funext s'
      rw [OperationOn.given, drawNonce_apply hnonces]
      rfl
    rw [hrun]
    exact .exchange _ fun _ => rfl
  | some script =>
    intro c
    rw [OperationOn.given, drawNonce_script hnonces]
    cases script.consume.1 with
    | error e => exact .inl ⟨.sign (.nonce e), c, rfl, rfl⟩
    | ok n => exact .inr ⟨n, c, trivial, rfl⟩

/-- Options without a plan end signing at once, before a nonce is drawn. -/
theorem sign_stuck {o : SignOptions} {e : SignError}
    (hplan : (fillDefaults s.table o).plan true = .error e) (url : String) (payload : Bytes) :
    OperationOn.Stuck s o (sign url payload) := by
  intro c
  have hplan' : (fillDefaults (s.over c).table o).plan true = .error e := hplan
  exact ⟨.sign e, by rw [sign_planned, hplan']⟩

theorem sign_sure {o : SignOptions} {p : SignPlan} (hplan : (fillDefaults s.table o).plan true = .ok p)
    (url : String) (payload : Bytes) : Operation.Sure s ((sign url payload).given o) fun _ => True := by
  have hsure : OperationOn.Sure s
      (drawNonce >>= fun n => (Operation.ofExcept .sign (p.sign (some n) url payload)).on) :=
    drawNonce_sure.bind fun n => .on (.ofExcept fun e he => SignPlan.sign_fault he)
  intro c
  have hrun : sign url payload o (s.over c)
      = (drawNonce >>= fun n => (Operation.ofExcept .sign (p.sign (some n) url payload)).on) o
          (s.over c) := by
    have hplan' : (fillDefaults (s.over c).table o).plan true = .ok p := hplan
    rw [sign_planned, hplan']
  rw [OperationOn.given, hrun]
  exact hsure o c

theorem post_stuck {o : SignOptions} {e : SignError}
    (hplan : (fillDefaults s.table o).plan true = .error e) (url : String) (payload : Bytes) :
    OperationOn.Stuck s o (post url payload) :=
  (sign_stuck hplan url payload).bind _

theorem post_sure {o : SignOptions} {p : SignPlan} (hplan : (fillDefaults s.table o).plan true = .ok p)
    (url : String) (payload : Bytes) : Operation.Sure s ((post url payload).given o) fun _ => True :=
  OperationOn.Sure.given_bind (sign_sure hplan url payload) fun _ => .on (send_sure _)

theorem sign_clean (o : SignOptions) (url : String) (payload : Bytes) :
    OperationOn.Clean s o (sign url payload) := by
  cases hplan : (fillDefaults s.table o).plan true with
  | error e => exact .of_stuck (sign_stuck hplan url payload)
  | ok p => exact .of_sure (sign_sure hplan url payload)

theorem post_clean (o : SignOptions) (url : String) (payload : Bytes) :
    OperationOn.Clean s o (post url payload) := by
  cases hplan : (fillDefaults s.table o).plan true with
  | error e => exact .of_stuck (post_stuck hplan url payload)
  | ok p => exact .of_sure (post_sure hplan url payload)

/-! ### What is decided -/

/-- What the active account signs either always fails at once, or never for a reason that is known
before. -/
theorem postDefault_cases (s : Session) :
    (∀ url payload, Operation.Stuck s (postDefault url payload))
      ∨ ∀ url payload, Operation.Sure s (postDefault url payload) fun _ => True := by
  cases hplan : (fillDefaults s.table noOptions).plan true with
  | error e => exact .inl fun url payload => (post_stuck hplan url payload).given
  | ok p => exact .inr fun url payload => post_sure hplan url payload

theorem fetch_cases (s : Session) :
    (∀ url, Operation.Stuck s (fetch url)) ∨ ∀ url, Operation.Sure s (fetch url) fun _ => True := by
  -- the configuration says which request it is
  cases hconfig : s.config.postAsGet with
  | false =>
    -- nobody signs, so there is nothing that could be missing
    right
    intro url
    refine Sure.get.bind fun s' hs' => ?_
    rw [hs'.2, hconfig]
    exact (send_sure _).bind fun r _ => expect_sure _ r
  | true =>
    rcases postDefault_cases s with hstuck | hsure
    · left
      intro url
      refine Still.get.bind_stuck fun s' hs' => ?_
      rw [hs'.2, hconfig]
      exact (hstuck url []).bind _
    · right
      intro url
      refine Sure.get.bind fun s' hs' => ?_
      rw [hs'.2, hconfig]
      exact (hsure url []).bind fun r _ => expect_sure _ r

theorem postDefault_decided (url : String) (payload : Bytes) : Decided s (postDefault url payload) :=
  (postDefault_cases s).imp (· url payload) (· url payload)

theorem fetch_decided (url : String) : Decided s (fetch url) :=
  (fetch_cases s).imp (· url) (· url)

theorem post_decided (o : SignOptions) (url : String) (payload : Bytes) :
    Decided s ((post url payload).given o) := by
  cases hplan : (fillDefaults s.table o).plan true with
  | error e => exact .inl (post_stuck hplan url payload).given
  | ok p => exact .inr (post_sure hplan url payload)

/-! ### After the answer -/

variable {R : Type} [Resource R]

theorem replaced_sure (r : R) (answer : Http.Response) : Sure s (replaced r answer) fun _ => True := by
  unfold replaced
  cases Resource.replaced? r answer.body with
  | none => exact .throw rfl
  | some r => exact .pure trivial

theorem described_sure (id : String) (answer : Http.Response) :
    Sure s (described id answer : Operation R) fun _ => True := by
  unfold described
  cases (Resource.ofBody? id answer.body : Option R) with
  | none => exact .throw rfl
  | some r => exact .pure trivial

theorem statusOf_sure (answer : Http.Response) : Sure s (statusOf answer) fun _ => True := by
  unfold statusOf
  split
  · exact .pure trivial
  · exact .throw rfl

theorem nameAccount_sure (a : Account) (contact : List String) (r : Http.Response) :
    Sure s (nameAccount a contact r) fun _ => True := by
  unfold nameAccount
  cases r.location? with
  | none => exact .throw rfl
  | some location => exact .pure trivial

theorem replaceKey_clean {a : Account} (h : s.table.active? = some a) (k : KeyPair) :
    Clean s nowhere (replaceKey a k) := by
  refine .of_ok fun c => ?_
  have hactive : (s.over c).table.active? = some a := h
  obtain ⟨table, hrun, -, -⟩ := replaceKey_ok hactive k
  exact ⟨_, by rw [hrun]⟩

theorem replaceContact_clean {a : Account} (h : s.table.active? = some a) (contact : List String) :
    Clean s nowhere (replaceContact contact) := by
  refine .of_ok fun c => ?_
  have hactive : (s.over c).table.active? = some a := h
  obtain ⟨b, table, hrun⟩ := replaceContact_ok hactive contact
  exact ⟨b, by rw [hrun]⟩

/-- After the decision the answer is waited for, and the rest is done. -/
theorem answered_clean {far : Connection → Connection → Prop} (hfar : ∀ c, far c c)
    {x : Operation Http.Response} (hx : Decided s x) {status : Http.Status}
    {f : Http.Response → Operation β} (hf : ∀ r, Clean s nowhere (f r)) :
    Clean s far (x >>= fun r => expect status r >>= f) :=
  hx.bind_clean hfar fun r => (expect_sure status r).bind_clean fun r _ => hf r

theorem posted_clean {far : Connection → Connection → Prop} (hfar : ∀ c, far c c)
    {p : Payload} {x : Bytes → Operation Http.Response} (hx : ∀ body, Decided s (x body))
    {status : Http.Status} {f : Http.Response → Operation β} (hf : ∀ r, Clean s nowhere (f r)) :
    Clean s far (payloadBytes p >>= fun body => x body >>= fun r => expect status r >>= f) :=
  (payloadBytes_still p).bind_clean hfar fun body _ => answered_clean hfar (hx body) hf

/-! ### Operations -/

theorem looked_refl (c : Connection) : Connection.Looked c c := .inl rfl

theorem done_clean (a : α) : Clean s nowhere (pure a) := (Sure.pure (P := fun _ => True) trivial).clean

theorem createAccount_clean (a : Account) : Clean s Connection.Looked (createAccount a) := by
  refine Clean.ite (fun _ => .throw_bind looked_refl _ _) fun _ => ?_
  refine endpoint_bind_clean fun url => Still.get.bind_clean (fun _ => rfl) fun s' _ => ?_
  exact posted_clean (fun _ => rfl) (fun body => post_decided _ url body) fun r =>
    (nameAccount_sure a _ r).clean

theorem updateAccount_clean (contact : List String) :
    Clean s Connection.Looked (updateAccount contact) := by
  refine activeIdentity_still.bind_clean looked_refl fun a ha => ?_
  exact posted_clean looked_refl (postDefault_decided a.id) fun _ => replaceContact_clean ha.1 contact

theorem deactivateAccount_clean : Clean s Connection.Looked deactivateAccount := by
  refine activeIdentity_still.bind_clean looked_refl fun a _ => ?_
  exact posted_clean looked_refl (postDefault_decided a.id) fun _ => done_clean _

theorem rollover_clean (k : KeyPair) : Clean s Connection.Looked (rollover k) := by
  refine endpoint_bind_clean fun url => activeIdentity_still.bind_clean (fun _ => rfl) fun a ha => ?_
  refine (Still.ofExcept _ _).bind_clean (fun _ => rfl) fun oldKey _ => ?_
  refine (payloadBytes_still _).bind_clean (fun _ => rfl) fun body _ => ?_
  refine (Still.ofExcept _ _).bind_clean (fun _ => rfl) fun inner _ => ?_
  exact answered_clean (fun _ => rfl) (post_decided _ url _) fun _ => replaceKey_clean ha.1 k

/-- Creating an order up to the answer, with the account that it is for. -/
def orderAnswer (o : Order) : Operation (Account × Http.Response) := do
  let a ← activeIdentity
  let url ← endpoint Endpoint.newOrder.name
  let body ← payloadBytes (.newOrder o.identifiers)
  let answer ← expect .created (← (post url body).given { noOptions with keyId := some a.id })
  return (a, answer)

theorem createOrder_answer (o : Order) :
    createOrder o = orderAnswer o >>= fun (a, answer) => recordOrder a answer := by
  simp only [orderAnswer, bind_assoc, pure_bind]
  rfl

/-- Recording an order fails without a location, which changes nothing, or with a body that cannot be
read. -/
theorem recordOrder_failed {a : Account} {r : Http.Response} {e : SessionError}
    (h : (recordOrder a r s).1 = .error e) :
    (e = .noLocation ∧ (recordOrder a r s).2 = s)
      ∨ e = .json ∧ ∃ location, r.location? = some location
        ∧ (Resource.ofBody? location r.body : Option Order) = none
        ∧ (recordOrder a r s).2.table = s.table.recordOrder a.id location := by
  unfold recordOrder at h ⊢
  cases hlocation : r.location? with
  | none =>
    rw [hlocation] at h
    cases h
    exact .inl ⟨rfl, rfl⟩
  | some location =>
    rw [hlocation] at h
    -- the order is recorded first, and nothing takes that back
    let recorded : Session := { s with table := s.table.recordOrder a.id location }
    change ((described location r : Operation Order) recorded).1 = _ at h
    have htable : ((described location r : Operation Order) recorded).2.table
        = s.table.recordOrder a.id location := by
      rw [described_snd]
    rw [described] at h
    cases hbody : (Resource.ofBody? location r.body : Option Order) with
    | none =>
      rw [hbody] at h
      cases h
      exact .inr ⟨rfl, location, rfl, hbody, htable⟩
    | some o =>
      rw [hbody] at h
      cases h

theorem orderAnswer_clean (o : Order) : Clean s Connection.Looked (orderAnswer o) := by
  refine activeIdentity_still.bind_clean looked_refl fun a _ => endpoint_bind_clean fun url => ?_
  exact posted_clean (fun _ => rfl) (post_decided _ url) fun _ => done_clean _

/-- An error of configuration does not come from recording the order. -/
theorem createOrder_config {o : Order} {c : Connection} {e : SessionError}
    (h : (createOrder o (s.over c)).1 = .error e) (hconfig : e.isConfig = true) :
    ∃ d, (createOrder o (s.over c)).2 = s.over d ∧ Connection.Looked c d := by
  have hanswer := orderAnswer_clean (s := s) o c
  rw [createOrder_answer, bind_apply] at h ⊢
  rcases hrun : orderAnswer o (s.over c) with ⟨r, s'⟩
  rw [hrun] at h hanswer
  cases r with
  | error e' =>
    cases h
    obtain ⟨d, hstate, hlooked⟩ := hanswer e rfl
    exact ⟨d, hstate, hlooked hconfig⟩
  | ok answered =>
    -- what comes after the answer fails by its location or by its body
    rcases recordOrder_failed h with ⟨rfl, -⟩ | ⟨rfl, -⟩ <;> cases hconfig

theorem update_cases (s : Session) :
    (∀ r : R, Operation.Stuck s (update r)) ∨ ∀ r : R, Operation.Sure s (update r) fun _ => True := by
  rcases fetch_cases s with hstuck | hsure
  · left
    intro r
    unfold update
    split
    · exact (Stuck.throw _).bind _
    · exact (hstuck _).bind _
  · right
    intro r
    unfold update
    split
    · exact .throw_bind rfl _
    · exact (hsure _).bind fun answer _ => replaced_sure r answer

theorem update_decided (r : R) : Decided s (update r) := (update_cases s).imp (· r) (· r)

theorem fetchAuthorizations_decided (o : Order) : Decided s (fetchAuthorizations o) := by
  unfold fetchAuthorizations
  rcases fetch_cases s with hstuck | hsure
  · cases o.authorizations with
    | nil => exact .inr (.pure trivial)
    | cons url urls =>
      rw [List.mapM_cons]
      exact .inl (((hstuck url).bind _).bind _)
  · exact .inr (.mapM (fun url => (hsure url).bind fun answer _ => described_sure url answer) _)

theorem pollUntil_clean (url target : String) (policy : Option PollPolicy) (cancelled : Nat → Bool) :
    Clean s Connection.Looked (pollUntil url target policy cancelled) := by
  refine Still.get.bind_clean looked_refl fun s' _ => ?_
  rcases fetch_cases s with hstuck | hsure
  · obtain ⟨f, hf⟩ := PollPolicy.exists_run_eq (policy.getD s'.config.poll) target
      (do statusOf (← fetch url)) fun n => (return cancelled n : Operation Bool)
    rw [hf]
    exact (((hstuck url).bind _).bind f).clean looked_refl
  · -- as the first fetch does not fail for a reason of configuration, no later one does
    have hrun := PollPolicy.run_of_closed (fun x => Operation.Sure s x fun _ => True)
      (fun _ => .pure trivial) (fun hx hf => hx.bind fun a _ => hf a)
      ((hsure url).bind fun answer _ => statusOf_sure answer)
      (fun n => .pure (a := cancelled n) trivial) (policy.getD s'.config.poll) target
    exact .of_nowhere hrun.clean

/-- A fetch of the resource that is polled. -/
def refetch : OperationOn R String := do
  let r ← (update (← getThe R)).on
  set r
  return Resource.status r

theorem refetch_apply (r : R) (s : Session) :
    refetch r s = ((update r).on >>= fun r => do
      set r
      return Resource.status r : OperationOn R String) r s := rfl

theorem pollResource_apply (target : String) (policy : Option PollPolicy) (cancelled : Nat → Bool)
    (r : R) (s : Session) :
    pollResource target policy cancelled r s
      = (policy.getD s.config.poll).run target refetch (fun n => return cancelled n) r s := rfl

theorem pollResource_clean (target : String) (policy : Option PollPolicy) (cancelled : Nat → Bool)
    (r : R) : OperationOn.Clean s r (pollResource target policy cancelled) := by
  rcases update_cases (R := R) s with hstuck | hsure
  · -- the first fetch is already stuck, with the resource as it was
    have hfetched : OperationOn.Stuck s r (refetch : OperationOn R String) := by
      intro c
      rw [refetch_apply]
      exact (OperationOn.Stuck.on (hstuck r)).bind _ c
    refine .of_stuck fun c => ?_
    obtain ⟨f, hf⟩ := PollPolicy.exists_run_eq (policy.getD s.config.poll) target refetch
      fun n => (return cancelled n : OperationOn R Bool)
    rw [pollResource_apply]
    show ∃ e, ((policy.getD s.config.poll).run _ _ _ : OperationOn R PollOutcome) r (s.over c) = _
    rw [hf]
    exact hfetched.bind f c
  · have hset (r : R) : OperationOn.Sure s (do
        set r
        return Resource.status r : OperationOn R String) :=
      fun b c => .inr ⟨_, c, trivial, rfl⟩
    have hfetched : OperationOn.Sure s (refetch : OperationOn R String) := by
      intro b c
      rw [OperationOn.given, refetch_apply]
      exact (OperationOn.Sure.on (hsure b)).bind hset b c
    have hrun := PollPolicy.run_of_closed (fun x => OperationOn.Sure s x)
      (fun _ => .pure _) (fun hx hf => hx.bind hf) hfetched
      (fun n => .pure (cancelled n)) (policy.getD s.config.poll) target
    exact .of_sure (hrun r)

theorem respondChallenge_clean (c : Challenge) : Clean s Connection.Looked (respondChallenge c) := by
  refine Clean.ite (fun _ => .throw_bind looked_refl _ _) fun _ => ?_
  exact posted_clean looked_refl (postDefault_decided c.url) fun r => (replaced_sure c r).clean

theorem deactivateAuthorization_clean (a : Authorization) :
    Clean s Connection.Looked (deactivateAuthorization a) := by
  refine Clean.ite (fun _ => .throw_bind looked_refl _ _) fun _ => ?_
  exact posted_clean looked_refl (postDefault_decided a.id) fun r => (replaced_sure a r).clean

theorem keyAuthorization_still (token : String) : Still s (keyAuthorization token) fun _ => True := by
  refine Still.get.bind fun s' _ => ?_
  cases s'.table.active? with
  | none => exact .throw _
  | some a => exact (Still.ofExcept _ _).bind fun _ _ => .pure trivial

theorem provision_clean (a : Authorization) (c : Challenge) (b : Responder) :
    OperationOn.Clean s b (provision a c) := by
  refine .on_bind (keyAuthorization_still _) fun value _ => ?_
  refine .on_bind (Still.ofExcept _ _) fun key _ => .of_sure (P := fun _ => True) ?_
  exact fun d => .inr ⟨value, d, trivial, rfl⟩

theorem cleanUp_clean (a : Authorization) (c : Challenge) (b : Responder) :
    OperationOn.Clean s b (cleanUp a c) := by
  refine .on_bind (Still.ofExcept _ _) fun key _ => .of_sure (P := fun _ => True) ?_
  exact fun d => .inr ⟨⟨⟩, d, trivial, rfl⟩

theorem finalize_clean (o : Order) (given : Option KeyPair) (seed : Bytes) :
    Clean s Connection.Looked (finalize o given seed) := by
  have hkey : Still s (certificateKey given seed) fun _ => True := by
    unfold certificateKey
    cases given.or (KeyPair.generate? .ecdsaP256 seed) with
    | none => exact .throw _
    | some k => exact .pure trivial
  refine Clean.ite (fun _ => .throw_bind looked_refl _ _) fun _ => ?_
  refine hkey.bind_clean looked_refl fun k _ => ?_
  refine (Still.ofExcept _ _).bind_clean looked_refl fun request _ => ?_
  exact posted_clean looked_refl (postDefault_decided o.finalize) fun r =>
    (replaced_sure o r).bind_clean fun _ _ => done_clean _

theorem download_clean (o : Order) : Clean s Connection.Looked (download o) := by
  refine Clean.ite (fun _ => .throw_bind looked_refl _ _) fun _ => ?_
  cases o.certificate with
  | none => exact (Stuck.throw _).clean looked_refl
  | some url =>
    refine (fetch_decided url).bind_clean looked_refl fun answer => ?_
    exact (Sure.ofExcept fun _ _ => rfl).clean

theorem revoke_clean (certificate : Bytes) (reason : Option UInt8) (given : Option KeyPair) :
    Clean s Connection.Looked (revoke certificate reason given) := by
  refine endpoint_bind_clean fun url => ?_
  exact posted_clean (fun _ => rfl) (post_decided _ url) fun _ => done_clean _

theorem setActiveAccount_clean (index : Nat) : Clean s Connection.Looked (setActiveAccount index) := by
  refine Still.get.bind_clean looked_refl fun s' _ => ?_
  refine Clean.ite (fun _ => .throw_bind looked_refl _ _) fun _ => .of_nowhere ?_
  rintro c e ⟨⟩

end Session

namespace Call

open Session OperationOn

def createsOrder : Call β → Bool
  | createOrder => true
  | _ => false

theorem clean (call : Call β) (h : call.createsOrder = false) (b : β) (s : Session) :
    OperationOn.Clean s b call.run := by
  cases call with
  | createAccount => exact .inPlace (createAccount_clean b)
  | updateAccount contact => exact .alone (updateAccount_clean contact) b
  | deactivateAccount => exact .alone deactivateAccount_clean b
  | rollover k => exact .alone (rollover_clean k) b
  | createOrder => cases h
  | update => exact .inPlace ((update_decided b).clean looked_refl)
  | fetchAuthorizations o => exact .alone ((fetchAuthorizations_decided o).clean looked_refl) b
  | pollUntil url target policy cancelled =>
    exact .alone (pollUntil_clean url target policy cancelled) b
  | pollResource target policy cancelled =>
    exact (pollResource_clean target policy cancelled b).bind_pure _
  | respondChallenge => exact .inPlace (respondChallenge_clean b)
  | deactivateAuthorization => exact .inPlace (deactivateAuthorization_clean b)
  | provision a c => exact (provision_clean a c b).bind_pure _
  | cleanUp a c => exact cleanUp_clean a c b
  | keyAuthorization token => exact .alone ((keyAuthorization_still token).clean looked_refl) b
  | finalize given seed => exact .inPlace ((finalize_clean b given seed).bind_pure _)
  | download o => exact .alone (download_clean o) b
  | revoke certificate reason given => exact .alone (revoke_clean certificate reason given) b
  | fetch url => exact .alone ((fetch_decided url).clean looked_refl) b
  | postAsGet url => exact .alone ((postDefault_decided url []).clean looked_refl) b
  | getAnonymously url => exact .alone (send_sure _).clean.of_nowhere b
  | sign url payload => exact (sign_clean b url payload).bind_pure _
  | post url payload => exact (post_clean b url payload).bind_pure _
  | endpoint name => exact .alone (endpoint_clean name) b
  | refreshNonce | refreshDirectory | termsOfService =>
    exact .alone (Operation.Sure.exchange _ fun _ => rfl).clean.of_nowhere b
  | setActiveAccount index => exact .alone (setActiveAccount_clean index) b
  | addAccount a activate | addKey name k | activeAccount | accounts | key name => rintro c e ⟨⟩

theorem config_looked (call : Call β) (b : β) (s : Session) {e : SessionError}
    (h : (call.run b s).1.1 = .error e) (hconfig : e.isConfig = true) :
    (call.run b s).1.2 = b
      ∧ ∃ d, (call.run b s).2 = s.over d ∧ Connection.Looked s.connection d := by
  cases hcreates : call.createsOrder with
  | false =>
    obtain ⟨d, hstate, hfar⟩ := call.clean hcreates b s s.connection e h
    obtain ⟨hobject, hlooked⟩ := hfar hconfig
    exact ⟨hobject, d, hstate, hlooked⟩
  | true =>
    cases call with
    | createOrder =>
      obtain ⟨hx, hrun⟩ := Operation.inPlace_error h
      obtain ⟨d, hstate, hlooked⟩ := createOrder_config (s := s) (c := s.connection) hx hconfig
      rw [run, hrun]
      exact ⟨rfl, d, hstate, hlooked⟩
    | _ => cases hcreates

/-- A call that fails by an error of configuration has left everything as it was: the caller's object,
with the nonces that options bring; the accounts; and the nonce that is held. Nothing has been sent,
or else the directory has been fetched and nothing more. -/
theorem config_error (call : Call β) (b : β) (s : Session) {e : SessionError}
    (h : (call.run b s).1.1 = .error e) (hconfig : e.isConfig = true) :
    (call.run b s).1.2 = b ∧ (call.run b s).2.config = s.config ∧ (call.run b s).2.table = s.table
      ∧ (call.run b s).2.connection.nonce = s.connection.nonce
      ∧ ((call.run b s).2.connection.requests = s.connection.requests
        ∨ (call.run b s).2.connection.requests
            = s.connection.requests ++ [.get s.connection.directoryUrl]) := by
  obtain ⟨hobject, d, hstate, hlooked⟩ := config_looked call b s h hconfig
  refine ⟨hobject, ?_⟩
  rw [hstate]
  refine ⟨rfl, rfl, ?_⟩
  show d.nonce = _ ∧ (d.requests = _ ∨ d.requests = _)
  rcases hlooked with rfl | rfl
  · exact ⟨rfl, .inl rfl⟩
  · exact ⟨rfl, .inr (Connection.Step.requests_run _ _)⟩

/-- A session that nothing has happened in, with a server that says where to revoke certificates. -/
def newcomer : Session where
  config := .default
  connection := .start (Http.Script.empty.push (.get, "https://ca/dir")
    ((Http.Response.ofCode 200).withJson (.object [("revokeCert", .string "https://ca/revoke")])))
    "https://ca/dir"
  table := .empty

/-- A certificate is to be revoked by the active account, but there is none. This is found out after
the directory has been fetched and before anything is signed. -/
theorem newcomer_revokes :
    ((revoke [48] none none).run () newcomer).1.1 = .error (.sign .missingKeyBinding)
      ∧ ((revoke [48] none none).run () newcomer).2.connection.nonce = ""
      ∧ ((revoke [48] none none).run () newcomer).2.connection.requests = [.get "https://ca/dir"] := by
  have herror : ((revoke [48] none none).run () newcomer).1.1 = .error (.sign .missingKeyBinding) := by
    decide +kernel
  obtain ⟨-, -, -, hnonce, hrequests⟩ := config_error (revoke [48] none none) () newcomer herror rfl
  refine ⟨herror, hnonce, hrequests.resolve_left ?_⟩
  decide +kernel

end Call

end Acme
