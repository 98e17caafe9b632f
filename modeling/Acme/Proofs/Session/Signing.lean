import Acme.Proofs.Jws.RoundTrip
import Acme.Proofs.Key.Identity
import Acme.Proofs.Session.Requests

/-!
# Signing and reading back

Signing is one plan, whatever source the nonce comes from: the options that are in order determine the
key and the header (`SignOptions.header`), and the message that comes out says nothing else when it is
read. Before the nonce is drawn the key may turn out to have no public key to embed
(`SignOptions.Fails`). The only thing that can go wrong after it is the signature itself
(`Jws.Faithful`).
-/

namespace Acme

/-! ### What options ask for -/

namespace SignOptions

/-- The header that options ask for. -/
def header (o : SignOptions) (signer : KeyPair) (nonce : Option String) (url : String) :
    ProtectedHeader :=
  { alg := signer.algorithm.signatureName, nonce, url,
    jwk := if o.keyId?.isSome then none else signer.jwk.toOption, kid := o.keyId? }

/-- Options are in order if they name the key in one of the two ways, and there are nonces and a key. -/
theorem validate_ok {o : SignOptions} {hasNonces : Bool} {k : KeyPair} {keyId : Option String}
    (h : o.validate hasNonces = .ok (k, keyId)) :
    o.embedKey = o.keyId?.isNone ∧ o.signer = some k ∧ keyId = o.keyId? := by
  unfold validate at h
  cases hembed : o.embedKey <;> cases hid : o.keyId? <;> cases hasNonces <;>
    cases hsigner : o.signer <;> simp [hembed, hid, hsigner] at h
  -- two cases are in order: an identifier without the public key, and the other way round
  · obtain ⟨rfl, rfl⟩ := h
    exact ⟨rfl, rfl, rfl⟩
  · obtain ⟨rfl, rfl⟩ := h
    exact ⟨rfl, rfl, rfl⟩

theorem plan_ok {o : SignOptions} {hasNonces : Bool} {p : SignPlan} (h : o.plan hasNonces = .ok p) :
    o.embedKey = o.keyId?.isNone ∧ o.signer = some p.signer
      ∧ KeyBinding.ofKey p.signer o.keyId? = .ok p.binding := by
  obtain ⟨keyId, hvalid, hbinding⟩ := plan_eq_ok_iff.mp h
  obtain ⟨hembed, hsigner, rfl⟩ := validate_ok hvalid
  exact ⟨hembed, hsigner, hbinding⟩

theorem header_of_plan {o : SignOptions} {hasNonces : Bool} {p : SignPlan}
    (h : o.plan hasNonces = .ok p) (nonce : Option String) (url : String) :
    ProtectedHeader.make p.signer.algorithm.signatureName nonce url p.binding
      = o.header p.signer nonce url := by
  obtain ⟨-, -, hbinding⟩ := plan_ok h
  rw [header]
  cases hid : o.keyId? with
  | some id =>
    rw [hid] at hbinding
    rw [← Except.ok.inj hbinding]
    rfl
  | none =>
    rw [hid] at hbinding
    obtain ⟨j, hj, hbinding⟩ := KeyBinding.ofKey_none_iff.mp hbinding
    rw [hbinding, hj]
    rfl

/-- There is nothing to fill in where the options give all of it themselves. -/
theorem fillDefaults_of_own {o : SignOptions} {k : KeyPair} (hsigner : o.signer = some k)
    (hnamed : o.embedKey = true ∨ o.keyId?.isSome) (t : AccountTable) :
    Session.fillDefaults t o = o := by
  have hfilled : (!o.embedKey && o.keyId?.isNone) = false := by
    rcases hnamed with hembed | hid
    · rw [hembed, Bool.not_true, Bool.false_and]
    · rw [Option.isNone_eq_false_iff.mpr hid, Bool.and_false]
  unfold Session.fillDefaults
  cases t.active? with
  | none => rfl
  | some a =>
    simp only [hfilled, Bool.false_and, hsigner, Option.some_or]
    obtain ⟨embedKey, keyId, signer, nonces⟩ := o
    obtain rfl : signer = some k := hsigner
    rfl

/-- Nothing is left to fill in where options are in order. -/
theorem fillDefaults_of_validate {o : SignOptions} {hasNonces : Bool} {k : KeyPair}
    {keyId : Option String} (h : o.validate hasNonces = .ok (k, keyId)) (t : AccountTable) :
    Session.fillDefaults t o = o := by
  obtain ⟨hembed, hsigner, -⟩ := validate_ok h
  apply fillDefaults_of_own hsigner
  rw [hembed]
  cases o.keyId? with
  | none => exact .inl rfl
  | some id => exact .inr rfl

end SignOptions

/-! ### What a message says -/

namespace Jws

/-- The text that a signature is for: a header and a payload in base64, joined by a point. -/
def signingInput (h : ProtectedHeader) (payload : Bytes) : String :=
  Base64.toUrl (Bytes.ofText h.toJson.text) ++ "." ++ Base64.toUrl payload

/-- Reading a message gives exactly what went into it. -/
structure ReadsBack (h : ProtectedHeader) (payload signature : Bytes) (m : SignedJws) : Prop where
  parse : parse m.serialized = .ok m.parsed
  parsed : m.parsed = { header := h, payload, signature, signingInput := signingInput h payload }
  members : Json.read? m.serialized = some (.object [
    ("protected", .string (Base64.toUrl (Bytes.ofText h.toJson.text))),
    ("payload", .string (Base64.toUrl payload)), ("signature", .string (Base64.toUrl signature))])
  /-- An empty payload is an empty string. -/
  empty : payload = [] → ∃ j, ofBytes? m.serialized = some j ∧ j.payload = ""

/-- Signing comes to a message that reads back if the key makes a signature for it; and whatever
becomes of it, it does not fail by being unreadable. -/
structure Faithful (signer : KeyPair) (h : ProtectedHeader) (payload : Bytes)
    (out : Except SignError SignedJws) : Prop where
  signed : ∀ signature, signer.sign (Bytes.ofText (signingInput h payload)) = .ok signature →
    ∃ m, out = .ok m ∧ ReadsBack h payload signature m
  readable : ∀ e, out ≠ .error (.unreadable e)

theorem read?_text (j : Jws) : Json.read? (Bytes.ofText j.text) = some j.toJson := by
  apply Json.read?_text
  refine ⟨by decide, ?_, ?_⟩
  · simp
  · exact ⟨trivial, trivial, trivial, trivial⟩

theorem readsBack_sealed (h : ProtectedHeader) (payload signature : Bytes) :
    ReadsBack h payload signature (sealed h payload signature) where
  parse := parse_sealed h payload signature
  parsed := rfl
  members := read?_text _
  empty := by
    rintro rfl
    exact ⟨_, ofBytes?_text _, rfl⟩

/-- What becomes of a header and a payload: a message that says just that, with the key's signature; or
the key does not sign. -/
inductive Signed (k : KeyPair) (h : ProtectedHeader) (payload : Bytes) :
    Except SignError SignedJws → Prop
  | message {signature : Bytes} {m : SignedJws}
    (hsign : k.sign (Bytes.ofText (signingInput h payload)) = .ok signature)
    (hreads : ReadsBack h payload signature m) : Signed k h payload (.ok m)
  | unsigned {e : KeyError} (hsign : k.sign (Bytes.ofText (signingInput h payload)) = .error e) :
    Signed k h payload (.error (.key e))

theorem signHeader_signed (k : KeyPair) (h : ProtectedHeader) (payload : Bytes) :
    Signed k h payload (signHeader k h payload) := by
  rw [signHeader_eq]
  split
  · rename_i signature hsign
    exact .message hsign (readsBack_sealed h payload signature)
  · rename_i e hsign
    exact .unsigned hsign

theorem Signed.faithful {signer : KeyPair} {h : ProtectedHeader} {payload : Bytes}
    {out : Except SignError SignedJws} (hsigned : Signed signer h payload out) :
    Faithful signer h payload out := by
  constructor
  · intro signature hsignature
    cases hsigned with
    | message hsign hreads =>
      cases hsign.symm.trans hsignature
      exact ⟨_, rfl, hreads⟩
    | unsigned hsign => cases hsign.symm.trans hsignature
  · intro e hunreadable
    cases hsigned <;> cases hunreadable

theorem signHeader_faithful (signer : KeyPair) (h : ProtectedHeader) (payload : Bytes) :
    Faithful signer h payload (signHeader signer h payload) :=
  (signHeader_signed signer h payload).faithful

end Jws

/-! ### Sources of nonces -/

namespace SignOptions

theorem sign_script {o : SignOptions} {p : SignPlan} (h : o.plan true = .ok p) {script rest : NonceScript}
    {n : String} (hscript : o.nonces = some script) (hdraw : script.consume = (.ok n, rest))
    (url : String) (payload : Bytes) :
    Jws.sign o url payload = (p.sign (some n) url payload, { o with nonces := some rest }) := by
  have hplan : o.plan o.nonces.isSome = .ok p := by
    rw [hscript]
    exact h
  unfold Jws.sign
  rw [hplan, hscript]
  simp only [hdraw]

theorem sign_session {o : SignOptions} {p : SignPlan} (h : o.plan true = .ok p) (hnone : o.nonces = none)
    {s : Session} {n : String} {drawn : Connection}
    (hdraw : Connection.consume s.connection = (.ok n, drawn)) (url : String) (payload : Bytes) :
    Session.sign url payload o s
      = (((p.sign (some n) url payload).mapError .sign, o), { s with connection := drawn }) := by
  obtain ⟨keyId, hvalid, -⟩ := plan_eq_ok_iff.mp h
  rw [Session.sign_apply hnone, fillDefaults_of_validate hvalid, h]
  simp only [Session.signAs_apply, hdraw]

/-- Where there is no public key to embed, signing fails before anything is drawn. -/
theorem sign_script_of_error {o : SignOptions} {e : SignError} (h : o.plan true = .error e)
    {script : NonceScript} (hscript : o.nonces = some script) (url : String) (payload : Bytes) :
    Jws.sign o url payload = (.error e, o) := by
  have hplan : o.plan o.nonces.isSome = .error e := by
    rw [hscript]
    exact h
  unfold Jws.sign
  rw [hplan]

theorem sign_session_of_error {o : SignOptions} {k : KeyPair} {keyId : Option String} {e : SignError}
    (hvalid : o.validate true = .ok (k, keyId)) (h : o.plan true = .error e) (hnone : o.nonces = none)
    (url : String) (payload : Bytes) (s : Session) :
    Session.sign url payload o s = ((.error (.sign e), o), s) := by
  rw [Session.sign_apply hnone, fillDefaults_of_validate hvalid, h]

/-- Signing with options that are in order, where the key can be named as they ask. -/
structure Signs (o : SignOptions) (p : SignPlan) (url : String) (payload : Bytes) : Prop where
  faithful : ∀ n, Jws.Faithful p.signer (o.header p.signer (some n) url) payload
    (p.sign (some n) url payload)
  script : ∀ script n rest, o.nonces = some script → script.consume = (.ok n, rest) →
    Jws.sign o url payload = (p.sign (some n) url payload, { o with nonces := some rest })
  session : ∀ (s : Session) (n : String) (drawn : Connection), o.nonces = none →
    Connection.consume s.connection = (.ok n, drawn) →
    Session.sign url payload o s
      = (((p.sign (some n) url payload).mapError .sign, o), { s with connection := drawn })

/-- Signing that fails for an error about the key, and leaves everything as it was. -/
structure Fails (o : SignOptions) (e : KeyError) (url : String) (payload : Bytes) : Prop where
  script : ∀ script, o.nonces = some script → Jws.sign o url payload = (.error (.key e), o)
  session : ∀ s : Session, o.nonces = none →
    Session.sign url payload o s = ((.error (.sign (.key e)), o), s)

theorem signs_of_plan {o : SignOptions} {p : SignPlan} (h : o.plan true = .ok p) (url : String)
    (payload : Bytes) : o.Signs p url payload where
  faithful n := by
    rw [SignPlan.sign, header_of_plan h]
    exact Jws.signHeader_faithful _ _ _
  script _ _ _ hscript hdraw := sign_script h hscript hdraw _ _
  session _ _ _ hnone hdraw := sign_session h hnone hdraw _ _

theorem fails_of_plan {o : SignOptions} {k : KeyPair} {keyId : Option String} {e : KeyError}
    (hvalid : o.validate true = .ok (k, keyId)) (h : o.plan true = .error (.key e)) (url : String)
    (payload : Bytes) : o.Fails e url payload where
  script _ hscript := sign_script_of_error h hscript _ _
  session _ hnone := sign_session_of_error hvalid h hnone _ _ _

/-- Options that are in order sign, whatever the URL, the payload and the nonce are, unless they ask to
embed the point at infinity. The message that comes out is read back as the header that the options ask
for, the payload, and the key's signature for the text that a reader finds. The nonce is the one that the
source of the options hands out, or that of the session; the message inside another one has none. -/
theorem sign_reads_back {o : SignOptions} {k : KeyPair} {keyId : Option String}
    (h : o.validate true = .ok (k, keyId)) (url : String) (payload : Bytes) :
    o.signer = some k ∧ keyId = o.keyId?
      ∧ (keyId.isSome ∨ k.publicKey ≠ .ec none →
          ∃ p, o.plan true = .ok p ∧ p.signer = k ∧ o.Signs p url payload)
      ∧ (keyId = none → k.publicKey = .ec none → o.Fails .noCoordinates url payload)
      ∧ ∀ l : KeyPair,
        (∀ j, l.jwk = .ok j → Jws.Faithful l
          { alg := l.algorithm.signatureName, nonce := none, url, jwk := some j, kid := none }
          payload (Jws.signInner l url payload))
        ∧ (l.publicKey ≠ .ec none → ∃ j, l.jwk = .ok j)
        ∧ (l.publicKey = .ec none → Jws.signInner l url payload = .error (.key .noCoordinates)) := by
  obtain ⟨-, hsigner, hid⟩ := validate_ok h
  have hplan := plan_of_validate h
  refine ⟨hsigner, hid, ?_, ?_, fun l => ⟨fun j hj => ?_, fun hpublic => ?_, fun hpublic => ?_⟩⟩
  · -- an identifier names any key, and the public key itself any but the point at infinity
    intro hnamed
    obtain ⟨binding, hbinding⟩ : ∃ b, KeyBinding.ofKey k keyId = .ok b := by
      cases keyId with
      | some id => exact ⟨_, rfl⟩
      | none =>
        obtain ⟨j, hj⟩ := KeyPair.exists_jwk (hnamed.resolve_left Bool.false_ne_true)
        exact ⟨_, KeyBinding.ofKey_none_iff.mpr ⟨j, hj, rfl⟩⟩
    rw [hbinding] at hplan
    exact ⟨_, hplan, rfl, signs_of_plan hplan url payload⟩
  · rintro rfl hpublic
    rw [KeyBinding.ofKey_none_error (KeyPair.jwk_eq_error_iff.mpr hpublic)] at hplan
    exact fails_of_plan h hplan url payload
  · rw [Jws.signInner_of_jwk hj]
    exact Jws.signHeader_faithful _ _ _
  · exact KeyPair.exists_jwk hpublic
  · exact Jws.signInner_of_error (KeyPair.jwk_eq_error_iff.mpr hpublic) url payload

/-- An account and a nonce that have to be escaped in a header. -/
def awkward : SignOptions where
  embedKey := false
  keyId := some "https://ca/\"é\\\n"
  signer := some .earlier
  nonces := some (.sequence ["\u0001\"漢"])

theorem awkward_reads_back :
    ∃ m, (Jws.sign awkward "https://ca/\t\\" []).1 = .ok m ∧ Jws.parse m.serialized = .ok m.parsed
      ∧ m.parsed.header.kid = awkward.keyId ∧ m.parsed.header.jwk = none
      ∧ m.parsed.header.nonce = some "\u0001\"漢" ∧ m.parsed.header.url = "https://ca/\t\\"
      ∧ m.parsed.payload = [] := by
  have hvalid : awkward.validate true = .ok (.earlier, some "https://ca/\"é\\\n") := rfl
  obtain ⟨-, -, hsigns, -⟩ := sign_reads_back hvalid "https://ca/\t\\" []
  obtain ⟨⟨signer, binding⟩, hplan, rfl, hsigns⟩ := hsigns (.inl rfl)
  obtain ⟨m, hm, hread⟩ := (hsigns.faithful "\u0001\"漢").signed _ rfl
  refine ⟨m, ?_, hread.parse, ?_⟩
  · rw [hsigns.script _ "\u0001\"漢" _ rfl rfl]
    exact hm
  · rw [hread.parsed]
    exact ⟨rfl, rfl, rfl, rfl, rfl⟩

/-- Options that ask to embed the point at infinity. -/
def pointless : SignOptions where
  embedKey := true
  keyId := none
  signer := some (.ec .zero)
  nonces := some (.sequence ["n"])

/-- A key that has been read, and options that are in order, with a nonce: yet nothing is signed. -/
theorem pointless_unsigned :
    KeyPair.ofDer .ecdsaP256 (EcKey.zero.encode .plain true) = .ok (.ec .zero)
      ∧ pointless.validate true = .ok (.ec .zero, none)
      ∧ (NonceScript.sequence ["n"]).consume.1 = .ok "n"
      ∧ Jws.sign pointless "https://ca/order" [] = (.error (.key .noCoordinates), pointless)
      ∧ Jws.signInner (.ec .zero) "https://ca/order" [] = .error (.key .noCoordinates) := by
  have hvalid : pointless.validate true = .ok (.ec .zero, none) := rfl
  have hplan : pointless.plan true = .error (.key .noCoordinates) := by
    rw [plan_of_validate hvalid, KeyBinding.ofKey_none_error KeyPair.jwk_zero]
    rfl
  exact ⟨EcKey.read_zero, rfl, rfl, sign_script_of_error hplan rfl _ _,
    Jws.signInner_of_error KeyPair.jwk_zero _ _⟩

end SignOptions

end Acme
