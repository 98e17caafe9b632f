import Acme.Proofs.Session.Signing

/-!
# What options come to in a session

A session fills in what options leave open, and then they are checked. Both steps take an empty
identifier for none. What they come to together is said here without either: which key counts
(`SignOptions.signerIn`), which identifier (`SignOptions.idIn`), and which source of nonces
(`SignOptions.draw`).

From these alone it is decided how signing ends (`Session.SignLaw`). Where the options are at fault,
nothing has happened. Nothing has happened either where they are in order but ask to embed a public key
that has no coordinates (`Session.pointless_undrawn`). Otherwise one nonce has been drawn, from the source
that counts.
-/

namespace Acme

open Stateful

/-! ### What counts -/

namespace SignOptions

/-- The key that signs: that of the options, or else the active account's. -/
def signerIn (o : SignOptions) (t : AccountTable) : Option KeyPair :=
  match o.signer with
  | some k => some k
  | none => t.active?.map (·.signer)

/-- The identifier that names the key: that of the options unless it is empty, or else the active
account's, if that is registered and the public key is not asked for. -/
def idIn (o : SignOptions) (t : AccountTable) : Option String :=
  match o.keyId? with
  | some id => some id
  | none => if o.embedKey then none else (t.active?.filter (·.isRegistered)).map (·.id)

/-- Takes one nonce from the options' own source, or else from the connection. The other one is not
touched. -/
def draw (o : SignOptions) (s : Session) : Except NonceError String × SignOptions × Session :=
  match o.nonces with
  | some script => (script.consume.1, { o with nonces := some script.consume.2 }, s)
  | none =>
    ((Connection.consume s.connection).1, o,
      { s with connection := (Connection.consume s.connection).2 })

/-- The header that the options ask for in a session. -/
def headerIn (o : SignOptions) (t : AccountTable) (k : KeyPair) (nonce url : String) :
    ProtectedHeader :=
  { alg := k.algorithm.signatureName, nonce := some nonce, url,
    jwk := if o.embedKey then k.jwk.toOption else none, kid := o.idIn t }

/-- The options are in order: the key is named in one of the two ways, and there is a key. -/
structure InOrder (o : SignOptions) (t : AccountTable) (k : KeyPair) : Prop where
  named : o.embedKey = (o.idIn t).isNone
  signer : o.signerIn t = some k

/-- The options are in order, and they do not ask to embed the point at infinity. -/
structure Signable (o : SignOptions) (t : AccountTable) (k : KeyPair) : Prop where
  inOrder : o.InOrder t k
  published : o.embedKey = true → k.publicKey ≠ .ec none

/-- What is wrong with the options. A key that is named in both ways, or in none, is found out first. -/
inductive Fault (o : SignOptions) (t : AccountTable) : SignError → Prop
  | conflicting {id : String} (hembed : o.embedKey = true) (hid : o.idIn t = some id) :
    Fault o t .embedKeyWithKeyId
  | nameless (hembed : o.embedKey = false) (hid : o.idIn t = none) : Fault o t .missingKeyBinding
  | signerless (hnamed : o.embedKey = (o.idIn t).isNone) (hsigner : o.signerIn t = none) :
    Fault o t .missingSigner

theorem InOrder.not_fault {o : SignOptions} {t : AccountTable} {k : KeyPair} (h : o.InOrder t k)
    (e : SignError) : ¬ o.Fault t e := by
  obtain ⟨hnamed, hsigner⟩ := h
  rintro (⟨hembed, hid⟩ | ⟨hembed, hid⟩ | ⟨-, hnone⟩)
  · rw [hembed, hid] at hnamed
    cases hnamed
  · rw [hembed, hid] at hnamed
    cases hnamed
  · rw [hsigner] at hnone
    cases hnone

theorem InOrder.unique {o : SignOptions} {t : AccountTable} {k l : KeyPair} (hk : o.InOrder t k)
    (hl : o.InOrder t l) : k = l :=
  Option.some.inj (hk.signer.symm.trans hl.signer)

/-- It is the same key that can be embedded. -/
theorem Signable.published_of_inOrder {o : SignOptions} {t : AccountTable} {k l : KeyPair}
    (h : o.Signable t k) (hl : o.InOrder t l) (hembed : o.embedKey = true) :
    l.publicKey ≠ .ec none := by
  cases h.inOrder.unique hl
  exact h.published hembed

theorem Fault.unique {o : SignOptions} {t : AccountTable} {e e' : SignError} (h : o.Fault t e)
    (h' : o.Fault t e') : e = e' := by
  cases h <;> cases h' <;> simp_all

/-- There is nothing else that can be wrong. -/
theorem exists_inOrder {o : SignOptions} {t : AccountTable} (h : ∀ e, ¬ o.Fault t e) :
    ∃ k, o.InOrder t k := by
  have hnamed : o.embedKey = (o.idIn t).isNone := by
    cases hembed : o.embedKey <;> cases hid : o.idIn t
    · exact absurd (.nameless hembed hid) (h _)
    · rfl
    · rfl
    · exact absurd (.conflicting hembed hid) (h _)
  cases hsigner : o.signerIn t with
  | none => exact absurd (.signerless hnamed hsigner) (h _)
  | some k => exact ⟨k, hnamed, hsigner⟩

theorem draw_of_script {o : SignOptions} {script : NonceScript} (h : o.nonces = some script)
    (s : Session) : o.draw s = (script.consume.1, { o with nonces := some script.consume.2 }, s) := by
  rw [draw, h]

variable (o : SignOptions) (t : AccountTable)

/-! ### Filling in -/

theorem embedKey_fillDefaults : (Session.fillDefaults t o).embedKey = o.embedKey := by
  unfold Session.fillDefaults
  cases t.active? <;> rfl

theorem signer_fillDefaults : (Session.fillDefaults t o).signer = o.signerIn t := by
  unfold Session.fillDefaults signerIn
  cases t.active? <;> cases o.signer <;> rfl

/-- The identifier of a registered account is not empty, so it counts once it is filled in. -/
theorem keyId?_fillDefaults : (Session.fillDefaults t o).keyId? = o.idIn t := by
  unfold Session.fillDefaults idIn
  cases ha : t.active? with
  | none => cases o.keyId? <;> simp
  | some a =>
    cases hid : o.keyId? with
    | some id =>
      -- an identifier that counts is never replaced
      show Option.filter _ (if (!o.embedKey && false) && a.isRegistered then some a.id else o.keyId) = _
      rw [Bool.and_false, Bool.false_and]
      exact hid
    | none =>
      -- none is there, or an empty one, which makes no difference
      show Option.filter _ (if (!o.embedKey && true) && a.isRegistered then some a.id else o.keyId) = _
      cases o.embedKey with
      | true => exact hid
      | false =>
        cases hregistered : a.isRegistered with
        | true =>
          rw [Option.filter_some, if_pos hregistered]
          show Option.filter _ (some a.id) = some a.id
          rw [Option.filter_some]
          exact if_pos hregistered
        | false =>
          rw [Option.filter_some, hregistered]
          exact hid

theorem validate_conflicting {o : SignOptions} {id : String} (hembed : o.embedKey = true)
    (hid : o.keyId? = some id) (hasNonces : Bool) :
    o.validate hasNonces = .error .embedKeyWithKeyId := by
  rw [validate, hembed, hid]

theorem validate_nameless {o : SignOptions} (hembed : o.embedKey = false) (hid : o.keyId? = none)
    (hasNonces : Bool) : o.validate hasNonces = .error .missingKeyBinding := by
  rw [validate, hembed, hid]

theorem validate_signerless {o : SignOptions} (hnamed : o.embedKey = o.keyId?.isNone)
    (hsigner : o.signer = none) : o.validate true = .error .missingSigner := by
  unfold validate
  rw [hnamed, hsigner]
  cases o.keyId? <;> rfl

theorem validate_named {o : SignOptions} {k : KeyPair} (hnamed : o.embedKey = o.keyId?.isNone)
    (hsigner : o.signer = some k) : o.validate true = .ok (k, o.keyId?) := by
  unfold validate
  rw [hnamed, hsigner]
  cases o.keyId? <;> rfl

end SignOptions

/-! ### How signing ends -/

namespace Session

open SignOptions

variable {url : String} {payload : Bytes} {o : SignOptions} {s : Session}

/-- How signing ends, with the options and the session that it leaves. -/
inductive SignResult (url : String) (payload : Bytes) (o : SignOptions) (s : Session) :
    (Except SessionError SignedJws × SignOptions) × Session → Prop
  | fault {e : SignError} (h : o.Fault s.table e) : SignResult url payload o s ((.error (.sign e), o), s)
  | unpublished {k : KeyPair} (h : o.InOrder s.table k) (hembed : o.embedKey = true)
    (hpublic : k.publicKey = .ec none) :
    SignResult url payload o s ((.error (.sign (.key .noCoordinates)), o), s)
  | undrawn {k : KeyPair} {e : NonceError} (h : o.Signable s.table k) (hdraw : (o.draw s).1 = .error e) :
    SignResult url payload o s ((.error (.sign (.nonce e)), (o.draw s).2.1), (o.draw s).2.2)
  | drawn {k : KeyPair} {n : String} {out : Except SignError SignedJws} (h : o.Signable s.table k)
    (hdraw : (o.draw s).1 = .ok n) (hsigned : Jws.Signed k (o.headerIn s.table k n url) payload out) :
    SignResult url payload o s ((out.mapError .sign, (o.draw s).2.1), (o.draw s).2.2)

theorem drawNonce_draw (o : SignOptions) (s : Session) :
    drawNonce o s
      = (((o.draw s).1.mapError (.sign <| .nonce ·), (o.draw s).2.1), (o.draw s).2.2) := by
  unfold draw
  cases hnonces : o.nonces with
  | none =>
    rw [drawNonce_apply hnonces]
    rfl
  | some script => exact drawNonce_script hnonces s

theorem sign_ready {p : SignPlan} (h : (fillDefaults s.table o).plan true = .ok p) :
    sign url payload o s =
      ((match (o.draw s).1 with
        | .error e => .error (.sign (.nonce e))
        | .ok n => (p.sign (some n) url payload).mapError .sign, (o.draw s).2.1), (o.draw s).2.2) := by
  rw [sign_planned, h]
  simp only []
  rw [OperationOn.bind_apply, drawNonce_draw]
  cases (o.draw s).1 <;> rfl

/-- Where the options are in order once they are filled in, the header is the one they ask for. -/
theorem header_fillDefaults {k : KeyPair} (hnamed : o.embedKey = (o.idIn s.table).isNone)
    (n : String) : (fillDefaults s.table o).header k (some n) url = o.headerIn s.table k n url := by
  rw [header, headerIn, keyId?_fillDefaults, hnamed]
  cases o.idIn s.table <;> rfl

/-- Options that are in order once they are filled in sign with a nonce that is drawn, unless they ask to
embed the point at infinity. -/
theorem sign_inOrder {k : KeyPair} (h : o.InOrder s.table k) (url : String) (payload : Bytes) :
    SignResult url payload o s (sign url payload o s) := by
  obtain ⟨hnamed, hsigner⟩ := h
  have hfilled : (fillDefaults s.table o).embedKey = (fillDefaults s.table o).keyId?.isNone := by
    rw [embedKey_fillDefaults, keyId?_fillDefaults, hnamed]
  have hplan := plan_of_validate (validate_named hfilled ((signer_fillDefaults o s.table).trans hsigner))
  rw [keyId?_fillDefaults] at hplan
  by_cases hpublished : o.embedKey = true → k.publicKey ≠ .ec none
  · have hready : ∃ binding, KeyBinding.ofKey k (o.idIn s.table) = .ok binding := by
      cases hid : o.idIn s.table with
      | some id => exact ⟨_, rfl⟩
      | none =>
        rw [hid] at hnamed
        obtain ⟨j, hj⟩ := KeyPair.exists_jwk (hpublished hnamed)
        exact ⟨_, KeyBinding.ofKey_none_iff.mpr ⟨j, hj, rfl⟩⟩
    obtain ⟨binding, hbinding⟩ := hready
    rw [hbinding] at hplan
    rw [sign_ready hplan]
    cases hdraw : (o.draw s).1 with
    | error e => exact .undrawn ⟨⟨hnamed, hsigner⟩, hpublished⟩ hdraw
    | ok n =>
      apply SignResult.drawn ⟨⟨hnamed, hsigner⟩, hpublished⟩ hdraw
      rw [SignPlan.sign, header_of_plan hplan, header_fillDefaults hnamed]
      exact Jws.signHeader_signed _ _ _
  · -- there is nothing to embed, and this is found out before a nonce is drawn
    obtain ⟨hembed, hpublic⟩ := Classical.not_imp.mp hpublished
    have hpublic : k.publicKey = .ec none := not_not.mp hpublic
    have hid : o.idIn s.table = none := Option.isNone_iff_eq_none.mp (hnamed.symm.trans hembed)
    rw [hid, KeyBinding.ofKey_none_error (KeyPair.jwk_eq_error_iff.mpr hpublic)] at hplan
    rw [sign_planned, hplan]
    exact .unpublished ⟨hnamed, hsigner⟩ hembed hpublic

theorem sign_result (url : String) (payload : Bytes) (o : SignOptions) (s : Session) :
    SignResult url payload o s (sign url payload o s) := by
  -- what counts is found in the options once they are filled in
  have hembed : (fillDefaults s.table o).embedKey = o.embedKey := embedKey_fillDefaults o s.table
  have hid : (fillDefaults s.table o).keyId? = o.idIn s.table := keyId?_fillDefaults o s.table
  by_cases hnamed : o.embedKey = (o.idIn s.table).isNone
  · cases hk : o.signerIn s.table with
    | none =>
      have hfilled : (fillDefaults s.table o).embedKey = (fillDefaults s.table o).keyId?.isNone := by
        rw [hembed, hid, hnamed]
      rw [sign_planned, plan_of_fault (validate_signerless hfilled
        ((signer_fillDefaults o s.table).trans hk))]
      exact .fault (.signerless hnamed hk)
    | some k => exact sign_inOrder ⟨hnamed, hk⟩ url payload
  · rw [sign_planned]
    cases hgiven : o.idIn s.table with
    | none =>
      have hopen : o.embedKey = false := by simpa [hgiven] using hnamed
      rw [plan_of_fault (validate_nameless (hembed.trans hopen) (hid.trans hgiven) true)]
      exact .fault (.nameless hopen hgiven)
    | some id =>
      have hboth : o.embedKey = true := by simpa [hgiven] using hnamed
      rw [plan_of_fault (validate_conflicting (hembed.trans hboth) (hid.trans hgiven) true)]
      exact .fault (.conflicting hboth hgiven)

namespace SignResult

variable {r : (Except SessionError SignedJws × SignOptions) × Session}

/-- The options are found fault with exactly where there is one, and then nothing has happened. -/
theorem config_iff (h : SignResult url payload o s r) {e : SignError} (he : e.isConfig) :
    r.1.1 = .error (.sign e) ↔ o.Fault s.table e := by
  constructor
  · intro hr
    cases h with
    | fault h =>
      cases hr
      exact h
    | unpublished _ _ _ =>
      cases hr
      cases he
    | undrawn _ _ =>
      cases hr
      cases he
    | drawn _ _ hsigned =>
      -- a key that cannot sign is no fault of the options
      cases hsigned with
      | message _ _ => cases hr
      | unsigned _ =>
        cases hr
        cases he
  · intro hfault
    cases h with
    | fault h =>
      rw [h.unique hfault]
    | unpublished h _ _ => exact absurd hfault (h.not_fault e)
    | undrawn h _ => exact absurd hfault (h.inOrder.not_fault e)
    | drawn h _ _ => exact absurd hfault (h.inOrder.not_fault e)

end SignResult

/-- What signing comes to, read off the key, the identifier and the source of nonces that count. -/
structure SignLaw (url : String) (payload : Bytes) (o : SignOptions) (s : Session)
    (r : (Except SessionError SignedJws × SignOptions) × Session) : Prop where
  embedKeyWithKeyId : r.1.1 = .error (.sign .embedKeyWithKeyId) ↔
    o.embedKey = true ∧ ∃ id, o.idIn s.table = some id
  missingKeyBinding : r.1.1 = .error (.sign .missingKeyBinding) ↔
    o.embedKey = false ∧ o.idIn s.table = none
  missingSigner : r.1.1 = .error (.sign .missingSigner) ↔
    o.embedKey = (o.idIn s.table).isNone ∧ o.signerIn s.table = none
  missingNonceSource : r.1.1 ≠ .error (.sign .missingNonceSource)
  /-- Options that are at fault are found out before anything has happened. -/
  untouched : ∀ e, o.Fault s.table e → r.1.2 = o ∧ r.2 = s
  ordered : (∀ e, ¬ o.Fault s.table e) → ∃ k, o.InOrder s.table k
  /-- So is a public key that cannot be embedded. -/
  unpublished : ∀ k, o.InOrder s.table k → o.embedKey = true → k.publicKey = .ec none →
    r = ((.error (.sign (.key .noCoordinates)), o), s)
  /-- One nonce is drawn otherwise, and the source that does not count is as before. -/
  drawn : ∀ k, o.Signable s.table k → (r.1.2, r.2) = (o.draw s).2
  refused : ∀ k, o.Signable s.table k → ∀ e, (o.draw s).1 = .error e →
    r.1.1 = .error (.sign (.nonce e))
  carried : ∀ k, o.Signable s.table k → ∀ n, (o.draw s).1 = .ok n →
    ∃ out, Jws.Signed k (o.headerIn s.table k n url) payload out ∧ r.1.1 = out.mapError .sign

theorem SignResult.lawful {r : (Except SessionError SignedJws × SignOptions) × Session}
    (h : SignResult url payload o s r) : SignLaw url payload o s r where
  embedKeyWithKeyId := by
    -- the three faults exclude each other, so that each is read off its own condition
    rw [h.config_iff rfl]
    constructor
    · rintro (⟨hembed, hid⟩ | _ | _)
      exact ⟨hembed, _, hid⟩
    · rintro ⟨hembed, id, hid⟩
      exact .conflicting hembed hid
  missingKeyBinding := by
    rw [h.config_iff rfl]
    constructor
    · rintro (_ | ⟨hembed, hid⟩ | _)
      exact ⟨hembed, hid⟩
    · rintro ⟨hembed, hid⟩
      exact .nameless hembed hid
  missingSigner := by
    rw [h.config_iff rfl]
    constructor
    · rintro (_ | _ | ⟨hnamed, hsigner⟩)
      exact ⟨hnamed, hsigner⟩
    · rintro ⟨hnamed, hsigner⟩
      exact .signerless hnamed hsigner
  missingNonceSource := by
    intro hr
    cases (h.config_iff rfl).mp hr
  untouched := by
    intro e he
    cases h with
    | fault _ => exact ⟨rfl, rfl⟩
    | unpublished _ _ _ => exact ⟨rfl, rfl⟩
    | undrawn h _ => exact absurd he (h.inOrder.not_fault e)
    | drawn h _ _ => exact absurd he (h.inOrder.not_fault e)
  ordered := exists_inOrder
  unpublished := by
    intro k hk hembed hpublic
    cases h with
    | fault h => exact absurd h (hk.not_fault _)
    | unpublished _ _ _ => rfl
    | undrawn h _ => exact absurd hpublic (h.published_of_inOrder hk hembed)
    | drawn h _ _ => exact absurd hpublic (h.published_of_inOrder hk hembed)
  drawn := by
    intro k hk
    cases h with
    | fault h => exact absurd h (hk.inOrder.not_fault _)
    | unpublished h hembed hpublic => exact absurd hpublic (hk.published_of_inOrder h hembed)
    | undrawn _ _ => rfl
    | drawn _ _ _ => rfl
  refused := by
    intro k hk e he
    cases h with
    | fault h => exact absurd h (hk.inOrder.not_fault _)
    | unpublished h hembed hpublic => exact absurd hpublic (hk.published_of_inOrder h hembed)
    | undrawn _ hdraw =>
      rw [hdraw] at he
      cases he
      rfl
    | drawn _ hdraw _ =>
      rw [hdraw] at he
      cases he
  carried := by
    intro k hk n hn
    cases h with
    | fault h => exact absurd h (hk.inOrder.not_fault _)
    | unpublished h hembed hpublic => exact absurd hpublic (hk.published_of_inOrder h hembed)
    | undrawn _ hdraw =>
      rw [hdraw] at hn
      cases hn
    | drawn h hdraw hsigned =>
      rw [hdraw] at hn
      cases hn
      -- the key is the one that was signed with
      cases h.inOrder.unique hk.inOrder
      exact ⟨_, hsigned, rfl⟩

/-- What options give themselves counts, whatever the session has. -/
structure OwnFirst (url : String) (payload : Bytes) (o : SignOptions) (s : Session) : Prop where
  signer : ∀ k, o.signer = some k → o.signerIn s.table = some k
  id : ∀ id, o.keyId = some id → id ≠ "" → o.idIn s.table = some id
  /-- Options with nonces of their own take none of the session's, and change nothing else in it. -/
  nonces : o.nonces.isSome → (sign url payload o s).2 = s
  /-- Options that give all of it sign alike in all sessions. -/
  all : ∀ k, o.signer = some k → o.embedKey = true ∨ o.keyId?.isSome → o.nonces.isSome →
    ∀ s', (sign url payload o s').1 = (sign url payload o s).1

theorem own_first (url : String) (payload : Bytes) (o : SignOptions) (s : Session) :
    OwnFirst url payload o s where
  signer := by
    intro k hk
    rw [signerIn, hk]
  id := by
    intro id hid hne
    have hgiven : o.keyId? = some id := by
      rw [keyId?, hid, Option.filter_some]
      exact if_pos (by simpa using hne)
    rw [idIn, hgiven]
  nonces := by
    intro hnonces
    obtain ⟨script, hscript⟩ := Option.isSome_iff_exists.mp hnonces
    have hsame : (o.draw s).2.2 = s := by rw [draw_of_script hscript]
    have h := sign_result url payload o s
    generalize sign url payload o s = r at h
    cases h with
    | fault _ => rfl
    | unpublished _ _ _ => rfl
    | undrawn _ _ => exact hsame
    | drawn _ _ _ => exact hsame
  all := by
    intro k hsigner hnamed hnonces s'
    obtain ⟨script, hscript⟩ := Option.isSome_iff_exists.mp hnonces
    cases hplan : o.plan true with
    | error e =>
      rw [sign_planned, sign_planned, fillDefaults_of_own hsigner hnamed,
        fillDefaults_of_own hsigner hnamed, hplan]
    | ok p =>
      -- the filled-in options are the same in all sessions
      have hready (s : Session) : (fillDefaults s.table o).plan true = .ok p := by
        rw [fillDefaults_of_own hsigner hnamed, hplan]
      rw [sign_ready (hready s'), sign_ready (hready s), draw_of_script hscript,
        draw_of_script hscript]

/-- Options, the active account and the session's connection decide how signing ends, and what the
options give themselves comes first. -/
theorem sign_lawful (url : String) (payload : Bytes) (o : SignOptions) (s : Session) :
    SignLaw url payload o s (sign url payload o s) ∧ OwnFirst url payload o s :=
  ⟨(sign_result url payload o s).lawful, own_first url payload o s⟩

/-- A session without accounts, in which nothing has been sent. -/
def idle : Session := ⟨.default, .start .empty "https://ca/dir", .empty⟩

/-- Options that are in order, and bring a key that has been read and a nonce, may sign nothing and leave
the nonce where it is. -/
theorem pointless_undrawn :
    KeyPair.ofDer .ecdsaP256 (EcKey.zero.encode .plain true) = .ok (.ec .zero)
      ∧ pointless.signer = some (.ec .zero) ∧ (∀ e, ¬ pointless.Fault idle.table e)
      ∧ (pointless.draw idle).1 = .ok "n"
      ∧ sign "https://ca/order" [] pointless idle
        = ((.error (.sign (.key .noCoordinates)), pointless), idle)
      ∧ (pointless.draw idle).2.1 ≠ pointless := by
  have hinOrder : pointless.InOrder idle.table (.ec .zero) := ⟨rfl, rfl⟩
  refine ⟨EcKey.read_zero, rfl, hinOrder.not_fault, rfl, ?_, nofun⟩
  exact (sign_result _ _ _ _).lawful.unpublished _ hinOrder rfl
    (congrArg PublicKey.ec EcKey.publicKey_zero)

end Session

end Acme
