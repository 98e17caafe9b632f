import Acme.Proofs.Session.Rules
import Acme.Session.Orders

/-!
# What requests say

The parts that operations are built from. A signed request is a letter: `postAs` signs and sends it
by a plan, and `post_given` says that posting with options is that, once the options are filled in
from the active account. The active account's own letters are `Letter.FromActive`.
-/

namespace Acme

open Stateful

/-- A letter that the active account signs, which has to be registered. -/
def Letter.FromActive (t : AccountTable) (l : Letter) : Prop :=
  ∃ a, t.active? = some a ∧ a.isRegistered ∧ l.plan = ⟨a.signer, .keyId a.id⟩

/-- A letter that embeds the public key of the key that signs it. -/
def Letter.Embeds (k : KeyPair) (l : Letter) : Prop := ∃ j, k.jwk = .ok j ∧ l.plan = ⟨k, .jwk j⟩

/-! ### Plans -/

theorem KeyBinding.ofKey_none_iff {k : KeyPair} {b : KeyBinding} :
    ofKey k none = .ok b ↔ ∃ j, k.jwk = .ok j ∧ b = .jwk j := by
  unfold ofKey
  cases k.jwk with
  | error e => exact ⟨nofun, nofun⟩
  | ok j => exact ⟨fun h => ⟨j, rfl, (Except.ok.inj h).symm⟩, by rintro ⟨_, ⟨⟩, rfl⟩; rfl⟩

theorem KeyBinding.ofKey_none_error {k : KeyPair} {e : KeyError} (h : k.jwk = .error e) :
    ofKey k none = .error (.key e) := by
  rw [ofKey, h]
  rfl

namespace Jws

/-- The message inside another one embeds the public key. -/
theorem signInner_of_jwk {k : KeyPair} {j : Jwk} (h : k.jwk = .ok j) (url : String) (payload : Bytes) :
    signInner k url payload = signHeader k
      { alg := k.algorithm.signatureName, nonce := none, url, jwk := some j, kid := none } payload := by
  rw [signInner, KeyBinding.ofKey_none_iff.mpr ⟨j, h, rfl⟩]
  show SignPlan.sign ⟨k, .jwk j⟩ none url payload = _
  rw [SignPlan.sign]
  rfl

theorem signInner_of_error {k : KeyPair} {e : KeyError} (h : k.jwk = .error e) (url : String)
    (payload : Bytes) : signInner k url payload = .error (.key e) := by
  rw [signInner, KeyBinding.ofKey_none_error h]
  rfl

theorem signInner_ok {k : KeyPair} {url : String} {payload : Bytes} {m : SignedJws}
    (h : signInner k url payload = .ok m) :
    ∃ j, k.jwk = .ok j ∧ signHeader k
      { alg := k.algorithm.signatureName, nonce := none, url, jwk := some j, kid := none } payload
        = .ok m := by
  cases hj : k.jwk with
  | error e =>
    rw [signInner_of_error hj] at h
    cases h
  | ok j => exact ⟨j, rfl, (signInner_of_jwk hj url payload).symm.trans h⟩

end Jws

namespace SignOptions

variable {o : SignOptions} {hasNonces : Bool}

/-- Options that are in order have a plan if their key can be named as they ask. -/
theorem plan_of_validate {k : KeyPair} {keyId : Option String}
    (h : o.validate hasNonces = .ok (k, keyId)) :
    o.plan hasNonces = (KeyBinding.ofKey k keyId).map (⟨k, ·⟩) := by
  rw [plan, h]
  rfl

theorem plan_of_fault {e : SignError} (h : o.validate hasNonces = .error e) :
    o.plan hasNonces = .error e := by
  rw [plan, h]
  rfl

/-- A plan is what the options ask for. -/
theorem plan_eq_ok_iff {p : SignPlan} :
    o.plan hasNonces = .ok p
      ↔ ∃ keyId, o.validate hasNonces = .ok (p.signer, keyId)
        ∧ KeyBinding.ofKey p.signer keyId = .ok p.binding := by
  -- the options are looked at first, the key only if there is nothing wrong with them
  cases hvalid : o.validate hasNonces with
  | error e =>
    rw [plan_of_fault hvalid]
    exact ⟨nofun, nofun⟩
  | ok found =>
    obtain ⟨k, keyId⟩ := found
    rw [plan_of_validate hvalid]
    constructor
    · intro h
      cases hbinding : KeyBinding.ofKey k keyId with
      | error e =>
        rw [hbinding] at h
        cases h
      | ok binding =>
        rw [hbinding] at h
        cases h
        exact ⟨keyId, rfl, hbinding⟩
    · rintro ⟨_, ⟨⟩, hbinding⟩
      rw [hbinding]
      rfl

theorem validate_embedding (t : AccountTable) (k : KeyPair) :
    (Session.fillDefaults t (Session.embedding k)).validate true = .ok (k, none) := by
  unfold Session.fillDefaults
  cases t.active? with
  | none => rfl
  | some a => rfl

/-- A plan that embeds a key is one with the JSON Web Key of the key. -/
theorem embeds_of_plan {t : AccountTable} {k : KeyPair} {p : SignPlan}
    (h : (Session.fillDefaults t (Session.embedding k)).plan true = .ok p) :
    ∃ j, k.jwk = .ok j ∧ p = ⟨k, .jwk j⟩ := by
  obtain ⟨keyId, hvalid, hbinding⟩ := plan_eq_ok_iff.mp h
  obtain ⟨signer, binding⟩ := p
  rw [validate_embedding] at hvalid
  cases hvalid
  obtain ⟨j, hj, rfl⟩ := KeyBinding.ofKey_none_iff.mp hbinding
  exact ⟨j, hj, rfl⟩

theorem plan_embedding {t : AccountTable} {k : KeyPair} {j : Jwk} (h : k.jwk = .ok j) :
    (Session.fillDefaults t (Session.embedding k)).plan true = .ok ⟨k, .jwk j⟩ :=
  plan_eq_ok_iff.mpr ⟨none, validate_embedding t k, KeyBinding.ofKey_none_iff.mpr ⟨j, h, rfl⟩⟩

/-- The plan of options that name the active account, or leave it to be filled in. -/
theorem plan_active {t : AccountTable} {a : Account} {o : SignOptions} (ha : t.active? = some a)
    (hregistered : a.isRegistered) (hembed : o.embedKey = false)
    (hid : o.keyId = none ∨ o.keyId = some a.id)
    (hsigner : o.signer = none ∨ o.signer = some a.signer) :
    (Session.fillDefaults t o).plan true = .ok ⟨a.signer, .keyId a.id⟩ := by
  obtain ⟨embedKey, keyId, signer, nonces⟩ := o
  simp only at hembed hid hsigner
  have hid' : (some a.id).filter (!·.isEmpty) = some a.id := by
    rw [Option.filter_some]
    exact if_pos hregistered
  refine plan_eq_ok_iff.mpr ⟨some a.id, ?_, rfl⟩
  unfold Session.fillDefaults
  rw [ha]
  rcases hid with rfl | rfl <;> rcases hsigner with rfl | rfl <;>
    simp [validate, keyId?, hembed, hregistered, hid']

/-- Options that say nothing have no other plan. -/
theorem plan_noOptions {t : AccountTable} {p : SignPlan}
    (h : (Session.fillDefaults t Session.noOptions).plan true = .ok p) :
    ∃ a, t.active? = some a ∧ a.isRegistered ∧ p = ⟨a.signer, .keyId a.id⟩ := by
  cases ha : t.active? with
  | none =>
    unfold Session.fillDefaults at h
    rw [ha] at h
    cases h
  | some a =>
    by_cases hregistered : a.isRegistered
    · rw [plan_active ha hregistered rfl (.inl rfl) (.inl rfl)] at h
      cases h
      exact ⟨a, rfl, hregistered, rfl⟩
    · unfold Session.fillDefaults at h
      rw [ha] at h
      obtain ⟨keyId, hvalid, -⟩ := plan_eq_ok_iff.mp h
      simp [hregistered, validate, keyId?, Session.noOptions] at hvalid

end SignOptions

/-- A change of the active account leaves it active. -/
theorem AccountTable.active?_modify {t : AccountTable} {a : Account} {index : Nat}
    (hactive : t.active = some index) (h : t.active? = some a) (change : Account → Account) :
    (t.modify index change).active? = some (change a) := by
  rw [active?, hactive, Option.bind_some] at h
  show t.active.bind _ = _
  rw [hactive, Option.bind_some]
  show (t.accounts.modify index change)[index]? = _
  rw [List.getElem?_modify_eq, h]
  rfl

namespace Session

/-! ### Sending -/

/-- Signs a letter with a nonce that is drawn for it. -/
def signAs (p : SignPlan) (url : String) (payload : Bytes) : Operation SignedJws := do
  let nonce ← Operation.exchange (.sign <| .nonce ·) Connection.consume
  Operation.ofExcept .sign (p.sign (some nonce) url payload)

/-- Signs a letter and sends it. -/
def postAs (p : SignPlan) (url : String) (payload : Bytes) : Operation Http.Response := do
  let m ← signAs p url payload
  send (.post url Http.joseJson m.serialized)

theorem drawNonce_apply {o : SignOptions} (h : o.nonces = none) (s : Session) :
    drawNonce o s =
      (((Operation.exchange (.sign <| .nonce ·) Connection.consume s).1, o),
        (Operation.exchange (.sign <| .nonce ·) Connection.consume s).2) := by
  obtain ⟨embedKey, keyId, signer, nonces⟩ := o
  obtain rfl : nonces = none := h
  rw [drawNonce, OperationOn.bind_apply]
  rfl

theorem drawNonce_script {o : SignOptions} {script : NonceScript} (h : o.nonces = some script)
    (s : Session) :
    drawNonce o s =
      ((script.consume.1.mapError (.sign <| .nonce ·), { o with nonces := some script.consume.2 }),
        s) := by
  obtain ⟨embedKey, keyId, signer, nonces⟩ := o
  obtain rfl : nonces = some script := h
  rw [drawNonce, OperationOn.bind_apply]
  -- a script hands out its values, then the fixed one, then nothing
  obtain ⟨values, fixed, calls⟩ := script
  cases values with
  | cons value values => rfl
  | nil => cases fixed <;> rfl

/-- Signing begins with the plan of the options. -/
theorem sign_planned (url : String) (payload : Bytes) (o : SignOptions) (s : Session) :
    sign url payload o s =
      match (fillDefaults s.table o).plan true with
      | .error e => ((.error (.sign e), o), s)
      | .ok p =>
        (drawNonce >>= fun n => (Operation.ofExcept .sign (p.sign (some n) url payload)).on) o s := by
  rw [sign, OperationOn.bind_apply]
  show ((getThe SignOptions : OperationOn SignOptions SignOptions) >>= _) o s = _
  rw [OperationOn.bind_apply]
  show (match (fillDefaults s.table o).plan true with | .error e => _ | .ok p => _ :
    OperationOn SignOptions SignedJws) o s = _
  cases (fillDefaults s.table o).plan true <;> rfl

/-- Signing with options that bring no nonces of their own is signing by their plan. -/
theorem sign_apply {o : SignOptions} (h : o.nonces = none) (url : String) (payload : Bytes)
    (s : Session) :
    sign url payload o s =
      match (fillDefaults s.table o).plan true with
      | .error e => ((.error (.sign e), o), s)
      | .ok p => (((signAs p url payload s).1, o), (signAs p url payload s).2) := by
  rw [sign_planned]
  cases (fillDefaults s.table o).plan true with
  | error e => rfl
  | ok p =>
    simp only []
    rw [OperationOn.bind_apply, drawNonce_apply h, signAs, bind_apply]
    rcases Operation.exchange (.sign <| .nonce ·) Connection.consume s with ⟨r, s'⟩
    cases r <;> rfl

/-- Posting with options that bring no nonces of their own is sending a letter by their plan. -/
theorem post_given {o : SignOptions} (h : o.nonces = none) (url : String) (payload : Bytes)
    (s : Session) :
    (post url payload).given o s =
      match (fillDefaults s.table o).plan true with
      | .error e => (.error (.sign e), s)
      | .ok p => postAs p url payload s := by
  rw [post, OperationOn.given_bind, sign_apply h]
  cases (fillDefaults s.table o).plan true with
  | error e => rfl
  | ok p =>
    simp only []
    rw [postAs, bind_apply]
    rcases signAs p url payload s with ⟨r, s'⟩
    cases r <;> rfl

/-- Sending a request is one step: the answer, if there is one, comes with a nonce that is taken
over or refused. -/
theorem send_apply {a : Connection.Step} {q : Http.Request} (s : Session)
    (hrequest : a.request? s.connection = some q) (hplain : a.isQuiet = false) :
    send q s =
      (match (s.connection.server.respond q).1 with
        | .error e => .error (.transport e)
        | .ok r =>
          match r.nonce? with
          | some n =>
            if s.connection.nonce = n then .error (.nonce (.duplicate n)) else .ok r
          | none => .ok r,
        { s with connection := a.run s.connection }) := by
  have hne : a ≠ .directory := by
    rintro rfl
    cases hplain
  -- such a step offers what the answer to its request brings
  have hoffered : a.offered? s.connection = (a.answer? s.connection).bind (·.nonce?) := by
    cases a with
    | directory | head url => cases hplain
    | prepare route r => cases hrequest
    | get url | post url body => rfl
  have hanswer := Connection.Step.answer?_of_request? hrequest
  -- first the exchange, then what is done with its answer
  have hsend : Operation.exchange .transport (Connection.send q) s
      = ((s.connection.server.respond q).1.mapError .transport,
        { s with connection := { s.connection with server := (s.connection.server.respond q).2 } }) :=
    rfl
  rw [send, bind_apply, hsend]
  cases hr : (s.connection.server.respond q).1 with
  | error e =>
    rw [Connection.Step.run_of_error hrequest hr]
    rfl
  | ok r =>
    rw [hr] at hanswer
    rw [hanswer] at hoffered
    simp only [mapError_ok]
    rw [bind_apply]
    cases hnonce : r.nonce? with
    | none =>
      have hnone : a.offered? s.connection = none := hoffered.trans hnonce
      rw [← Connection.run_of_not_offered hrequest hne hnone, absorb, Connection.absorb, hnonce]
      rfl
    | some n =>
      have hsome : a.offered? s.connection = some n := hoffered.trans hnonce
      have habsorb (s : Session) : absorb r s
          = ((Connection.hold n s.connection).1.mapError .nonce,
            { s with connection := (Connection.hold n s.connection).2 }) := by
        rw [absorb, Connection.absorb, hnonce]
        rfl
      rw [← Connection.hold_snd hrequest hne hsome, habsorb, Connection.hold_apply]
      -- a nonce that is held already is refused and stays
      by_cases hheld : s.connection.nonce = n
      · simp [hheld]
      · simp [hheld, pure_apply]

/-- Looking up a URL is looking it up in the directory. -/
theorem endpoint_apply (name : String) (s : Session) :
    endpoint name s =
      (match (Connection.resolve name s.connection).1 with
        | .error e => .error (.directory e)
        | .ok none => .error (.noEndpoint name)
        | .ok (some url) => .ok url,
        { s with connection := (Connection.resolve name s.connection).2 }) := by
  have hexchange : Operation.exchange .directory (Connection.resolve name) s
      = ((Connection.resolve name s.connection).1.mapError .directory,
        { s with connection := (Connection.resolve name s.connection).2 }) := rfl
  rw [endpoint, bind_apply, hexchange]
  rcases (Connection.resolve name s.connection).1 with e | _ | url <;> rfl

/-! ### What the parts of operations say -/

variable {t : AccountTable} {allowed : Letter → Prop}

open Operation

theorem activeIdentity_does :
    Does t allowed activeIdentity fun a => t.active? = some a ∧ a.isRegistered := by
  refine Does.get.bind fun s hs => ?_
  cases ha : s.table.active? with
  | none => exact Does.throw _
  | some a =>
    refine Does.ite (fun _ => Does.throw_bind _ _) fun hregistered => ?_
    exact Does.pure ⟨by rw [← hs, ha], by simpa using hregistered⟩

theorem endpoint_does (name : String) : Does t allowed (endpoint name) fun _ => True := by
  refine (Does.exchange (P := fun _ => True) ?_ fun _ _ _ => trivial).bind fun url _ => ?_
  · intro c
    obtain ⟨steps, hsteps, hquiet, -⟩ := (Connection.resolve_looked c name).steps
    rw [hsteps]
    exact Connection.Converses.refl.quiets hquiet
  · cases url with
    | none => exact Does.throw _
    | some url => exact Does.pure trivial

theorem refreshNonce_does : Does t allowed refreshNonce fun _ => True := by
  refine Does.exchange (fun c => ?_) fun _ _ _ => trivial
  obtain ⟨steps, hsteps, hquiet, -⟩ := Connection.refreshNonce_steps c
  rw [hsteps]
  exact Connection.Converses.refl.quiets hquiet

theorem payloadBytes_does (p : Payload) :
    Does t allowed (payloadBytes p) fun b => p.toBytes = .ok b :=
  Does.ofExcept fun _ hb => hb

theorem expect_does (status : Http.Status) (r : Http.Response) :
    Does t allowed (expect status r) fun _ => True :=
  Does.ite (fun _ => Does.pure trivial) fun _ => Does.throw _

theorem signAs_apply (p : SignPlan) (url : String) (payload : Bytes) (s : Session) :
    signAs p url payload s =
      (match (Connection.consume s.connection).1 with
        | .error e => .error (.sign (.nonce e))
        | .ok nonce => (p.sign (some nonce) url payload).mapError .sign,
        { s with connection := (Connection.consume s.connection).2 }) := by
  have hconsume : Operation.exchange (.sign <| .nonce ·) Connection.consume s
      = ((Connection.consume s.connection).1.mapError (.sign <| .nonce ·),
        { s with connection := (Connection.consume s.connection).2 }) := rfl
  rw [signAs, bind_apply, hconsume]
  cases (Connection.consume s.connection).1 <;> rfl

theorem signAs_does (p : SignPlan) (url : String) (payload : Bytes) :
    Does t allowed (signAs p url payload) fun _ => True := by
  intro s hs
  obtain ⟨steps, hsteps, hquiet, -⟩ := Connection.consume_steps s.connection
  rw [signAs_apply, hsteps]
  exact ⟨Connection.Converses.refl.quiets hquiet, hs, fun _ _ => trivial⟩

/-- What comes after a letter has been signed is sending it. -/
theorem postAs_signed {p : SignPlan} {url n : String} {payload : Bytes} {s : Session}
    {drawn : Connection} {m : SignedJws} (hdraw : Connection.consume s.connection = (.ok n, drawn))
    (hsign : p.sign (some n) url payload = .ok m) :
    postAs p url payload s
      = send (.post url Http.joseJson m.serialized) { s with connection := drawn } := by
  have hsigned : signAs p url payload s = (.ok m, { s with connection := drawn }) := by
    rw [signAs_apply, hdraw]
    simp only [hsign, mapError_ok]
  rw [postAs, bind_ok hsigned]

theorem postAs_does {p : SignPlan} {url : String} {payload : Bytes}
    (h : allowed ⟨p, url, payload⟩) : Does t allowed (postAs p url payload) fun _ => True := by
  intro s hs
  -- signing alone converses with no letter, but draws what the letter has to have
  have hsigned : s.connection.Converses allowed (signAs p url payload s).2.connection :=
    (signAs_does p url payload s hs).1
  rw [signAs_apply] at hsigned
  cases hr : (Connection.consume s.connection).1 with
  | error e =>
    rw [postAs, bind_apply, signAs_apply, hr]
    exact ⟨hsigned, hs, fun _ _ => trivial⟩
  | ok nonce =>
    cases hsign : p.sign (some nonce) url payload with
    | error e =>
      rw [postAs, bind_apply, signAs_apply, hr]
      simpa [hsign, hs] using hsigned
    | ok m =>
      have hdraw : Connection.consume s.connection
          = (.ok nonce, (Connection.consume s.connection).2) := Prod.ext hr rfl
      have hrequest : (Connection.Step.post url m.serialized).request?
          (Connection.consume s.connection).2 = some (.post url Http.joseJson m.serialized) := rfl
      rw [postAs_signed hdraw hsign,
        send_apply { s with connection := (Connection.consume s.connection).2 } hrequest rfl]
      exact ⟨Connection.Converses.refl.post (l := ⟨p, url, payload⟩) h hdraw hsign, hs,
        fun _ _ => trivial⟩

/-- Posting is allowed if the letter by every plan of the options is. -/
theorem post_does {o : SignOptions} (hnonces : o.nonces = none) {url : String} {payload : Bytes}
    (h : ∀ p, (fillDefaults t o).plan true = .ok p → allowed ⟨p, url, payload⟩) :
    Does t allowed ((post url payload).given o) fun _ => True := by
  intro s hs
  rw [post_given hnonces, hs]
  cases hplan : (fillDefaults t o).plan true with
  | error e => exact ⟨.refl, hs, fun _ _ => trivial⟩
  | ok p => exact postAs_does (h p hplan) s hs

theorem postDefault_does (h : ∀ l, l.FromActive t → allowed l) (url : String) (payload : Bytes) :
    Does t allowed (postDefault url payload) fun _ => True :=
  post_does rfl fun p hp => h ⟨p, url, payload⟩ (SignOptions.plan_noOptions hp)

theorem getAnonymously_does (url : String) : Does t allowed (getAnonymously url) fun _ => True := by
  intro s hs
  have hrequest : (Connection.Step.get url).request? s.connection = some (.get url) := rfl
  rw [getAnonymously, send_apply s hrequest rfl]
  exact ⟨Connection.Converses.refl.get, hs, fun _ _ => trivial⟩

/-- The method by which a session fetches. -/
def fetchMethod (s : Session) : Http.Method := if s.config.postAsGet then .post else .get

theorem fetch_does (h : ∀ l, l.FromActive t → allowed l) (url : String) :
    Does t allowed (fetch url) fun _ => True := by
  refine Does.get.bind fun s _ => ?_
  exact Does.ite (fun _ => (postDefault_does h url []).bind fun r _ => expect_does _ r)
    fun _ => (getAnonymously_does url).bind fun r _ => expect_does _ r

variable {R : Type} [Resource R]

theorem replaced_does (r : R) (answer : Http.Response) :
    Does t allowed (replaced r answer) fun _ => True := by
  unfold replaced
  cases Resource.replaced? r answer.body with
  | none => exact Does.throw _
  | some r => exact Does.pure trivial

theorem described_does (id : String) (answer : Http.Response) :
    Does t allowed (described id answer : Operation R) fun _ => True := by
  unfold described
  cases (Resource.ofBody? id answer.body : Option R) with
  | none => exact Does.throw _
  | some r => exact Does.pure trivial

/-! ### After the answer -/

/-- What is left to do when the server has made an account. -/
def nameAccount (a : Account) (contact : List String) (r : Http.Response) : Operation Account := do
  let some location := r.location? | throw .noLocation
  return { a with id := location, contact := contact.map Payload.normalContact }

/-- What is left to do when the server has made an order. -/
def recordOrder (a : Account) (r : Http.Response) : Operation Order := do
  let some location := r.location? | throw .noLocation
  modifyTable (·.recordOrder a.id location)
  described location r

/-- What is left to do when the server has agreed to another key. -/
def replaceKey (a : Account) (k : KeyPair) : Operation Unit := do
  let some index := (← get).table.active | throw .noActiveAccount
  modifyTable fun t =>
    (t.addKey a.id k).modify index fun a => { a with signer := k }

/-- What is left to do when the server has agreed to another contact. -/
def replaceContact (contact : List String) : Operation Account := do
  let some index := (← get).table.active | throw .noActiveAccount
  modifyTable (·.modify index fun a => { a with contact := contact.map Payload.normalContact })
  let some a := (← get).table.active? | throw .noActiveAccount
  return a

theorem nameAccount_silent (a : Account) (contact : List String) (r : Http.Response) :
    Silent (nameAccount a contact r) := by
  unfold nameAccount
  cases r.location? with
  | none => exact Silent.throw _
  | some location => exact Silent.pure _

theorem described_snd (id : String) (answer : Http.Response) (s : Session) :
    ((described id answer : Operation R) s).2 = s := by
  unfold described
  cases (Resource.ofBody? id answer.body : Option R) <;> rfl

theorem recordOrder_silent (a : Account) (r : Http.Response) : Silent (recordOrder a r) := by
  unfold recordOrder
  cases r.location? with
  | none => exact Silent.throw _
  | some location => exact (Silent.modifyTable _).bind fun _ s => by rw [described_snd]

theorem replaceContact_silent (contact : List String) : Silent (replaceContact contact) := by
  refine Silent.get.bind fun s => ?_
  cases s.table.active with
  | none => exact Silent.throw _
  | some index =>
    refine (Silent.modifyTable _).bind fun _ => Silent.get.bind fun s => ?_
    cases s.table.active? with
    | none => exact Silent.throw _
    | some a => exact Silent.pure a

theorem replaceKey_silent (a : Account) (k : KeyPair) : Silent (replaceKey a k) := by
  refine Silent.get.bind fun s => ?_
  cases s.table.active with
  | none => exact Silent.throw _
  | some index => exact Silent.modifyTable _

/-! While there is an active account, these do not fail. -/

theorem replaceKey_ok {s : Session} {a : Account} (h : s.table.active? = some a) (k : KeyPair) :
    ∃ table, replaceKey a k s = (.ok ⟨⟩, { s with table })
      ∧ table.active? = some { a with signer := k } ∧ table.keys.get? a.id = some k := by
  obtain ⟨index, hactive, -⟩ := Option.bind_eq_some_iff.mp h
  refine ⟨(s.table.addKey a.id k).modify index fun a => { a with signer := k }, ?_, ?_, ?_⟩
  · rw [replaceKey, bind_ok (get_apply s)]
    simp only [hactive]
    rfl
  · exact AccountTable.active?_modify (t := s.table.addKey a.id k) hactive h _
  · exact (Table.get?_insert ..).trans (if_pos rfl)

theorem replaceContact_ok {s : Session} {a : Account} (h : s.table.active? = some a)
    (contact : List String) :
    ∃ b table, replaceContact contact s = (.ok b, { s with table }) := by
  obtain ⟨index, hactive, -⟩ := Option.bind_eq_some_iff.mp h
  have hmodified := AccountTable.active?_modify hactive h
    fun a => { a with contact := contact.map Payload.normalContact }
  refine ⟨{ a with contact := contact.map Payload.normalContact },
    s.table.modify index fun a => { a with contact := contact.map Payload.normalContact }, ?_⟩
  have hset (change : AccountTable → AccountTable) :
      modifyTable change s = (.ok ⟨⟩, { s with table := change s.table }) := rfl
  rw [replaceContact, bind_ok (get_apply s)]
  simp only [hactive]
  rw [bind_ok (hset _), bind_ok (get_apply _)]
  simp only [hmodified]
  rfl

end Session

end Acme
