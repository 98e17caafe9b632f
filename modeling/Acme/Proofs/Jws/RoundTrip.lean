import Acme.Jws.Sign
import Acme.Proofs.Base64
import Acme.Proofs.Jwk

/-!
# Messages are read as they were written

Protected headers and whole messages survive being written and read, as the keys in them do. So a
message that is signed can always be read back, and what is read is the header, the payload and the
signature that went into it (`signHeader_eq`); the only thing that can go wrong is the signature
itself.
-/

namespace Acme

/-! ### Protected headers -/

namespace ProtectedHeader

@[simp] theorem make_alg (alg : String) (nonce : Option String) (url : String) (b : KeyBinding) :
    (make alg nonce url b).alg = alg := by
  cases b <;> rfl

@[simp] theorem make_nonce (alg : String) (nonce : Option String) (url : String) (b : KeyBinding) :
    (make alg nonce url b).nonce = nonce := by
  cases b <;> rfl

@[simp] theorem make_url (alg : String) (nonce : Option String) (url : String) (b : KeyBinding) :
    (make alg nonce url b).url = url := by
  cases b <;> rfl

variable (h : ProtectedHeader)

theorem lookup_toJson :
    h.toJson.members.lookup "alg" = some (.string h.alg)
    ∧ h.toJson.members.lookup "nonce" = h.nonce.map .string
    ∧ h.toJson.members.lookup "url" = some (.string h.url)
    ∧ h.toJson.members.lookup "jwk" = h.jwk.map Jwk.toJson
    ∧ h.toJson.members.lookup "kid" = h.kid.map .string := by
  obtain ⟨alg, nonce, url, jwk, kid⟩ := h
  cases nonce <;> cases jwk <;> cases kid <;>
    simp [toJson, Json.members, Json.member?, List.lookup_cons]

theorem nodup_toJson : (h.toJson.members.map (·.1)).Nodup := by
  obtain ⟨alg, nonce, url, jwk, kid⟩ := h
  cases nonce <;> cases jwk <;> cases kid <;> simp [toJson, Json.members, Json.member?]

theorem fits_toJson : Json.Fits Json.Node.nestingLimit h.toJson := by
  refine ⟨by decide, h.nodup_toJson, ?_⟩
  have hjwk (k : Jwk) : Json.Fits (Json.Node.nestingLimit - 1) k.toJson := k.fits_toJson (by decide)
  obtain ⟨alg, nonce, url, jwk, kid⟩ := h
  cases nonce <;> cases jwk <;> cases kid <;>
    simp [Json.member?, Json.MembersFit, Json.Fits, hjwk]

/-- A header is read as it was written. -/
theorem ofBytes?_text : ofBytes? (Bytes.ofText h.text) = some h := by
  obtain ⟨r, hr, -, hfind⟩ :=
    Json.Node.exists_record?_node ["alg", "nonce", "url", "jwk", "kid"] _ h.nodup_toJson
  obtain ⟨halg, hnonce, hurl, hjwk, hkid⟩ := h.lookup_toJson
  have hobject : Json.object h.toJson.members = h.toJson := rfl
  have hstring (s : String) : Json.Node.text? (Json.node (.string s)) = some s
      ∧ Json.node (.string s) ≠ .null := by
    simp [Json.node, Json.Node.text?]
  have hkey (k : Jwk) : Jwk.ofNode? (Json.Node.nestingLimit - 1) k.toJson.node = some k
      ∧ k.toJson.node ≠ .null := by
    refine ⟨k.ofNode?_toJson (by decide), ?_⟩
    cases k <;> simp [Jwk.toJson, Json.node]
  rw [hobject] at hr
  rw [ofBytes?, text, Json.Node.read_text h.toJson h.fits_toJson.plain, Option.bind_some, ofNode?, hr]
  simp [Json.Record.required, hfind, halg, hurl, hstring,
    Json.Record.optional_written ((hfind "nonce" (by simp)).trans (by rw [hnonce])) fun s _ => hstring s,
    Json.Record.optional_written ((hfind "jwk" (by simp)).trans (by rw [hjwk])) fun k _ => hkey k,
    Json.Record.optional_written ((hfind "kid" (by simp)).trans (by rw [hkid])) fun s _ => hstring s]

end ProtectedHeader

/-! ### Messages -/

namespace Jws

/-- The three strings are read as they were written. -/
theorem ofBytes?_text (j : Jws) : ofBytes? (Bytes.ofText j.text) = some j := by
  have hfits : Json.Fits 1 j.toJson := by
    simp [toJson, Json.Fits, Json.MembersFit]
  obtain ⟨r, hr, -, hfind⟩ := Json.Node.exists_record?_node ["protected", "payload", "signature"]
    j.toJson.members (by simp [toJson, Json.members])
  have hobject : Json.object j.toJson.members = j.toJson := rfl
  rw [hobject] at hr
  rw [ofBytes?, text, Json.Node.read_text j.toJson hfits.plain, Option.bind_some, ofNode?, hr]
  simp [Json.Record.required, hfind, toJson, Json.members, Json.node, Json.Node.text?, List.lookup_cons]

theorem decoded_toUrl (b : Bytes) : decoded (Base64.toUrl b) = .ok b := by
  rw [decoded, Base64.ofUrl_toUrl]

/-- A message for a header, a payload and a signature is taken apart into them. -/
theorem parse_text (h : ProtectedHeader) (payload signature : Bytes) :
    parse (Bytes.ofText (text
      { header := h.encoded, payload := Base64.toUrl payload, signature := Base64.toUrl signature }))
      = .ok { header := h, payload, signature,
              signingInput := h.encoded ++ "." ++ Base64.toUrl payload } := by
  have hheader : decoded h.encoded = .ok (Bytes.ofText h.text) := decoded_toUrl _
  rw [parse, ofBytes?_text]
  simp only [parsed, hheader, decoded_toUrl, bind, Except.bind, pure, Except.pure,
    ProtectedHeader.ofBytes?_text]

/-! ### Signed messages -/

/-- The message that a header, a payload and a signature make, with what it says when it is read. -/
def sealed (h : ProtectedHeader) (payload signature : Bytes) : SignedJws :=
  { serialized := Bytes.ofText (text
      { header := h.encoded, payload := Base64.toUrl payload, signature := Base64.toUrl signature }),
    parsed := { header := h, payload, signature,
                signingInput := h.encoded ++ "." ++ Base64.toUrl payload } }

theorem parse_sealed (h : ProtectedHeader) (payload signature : Bytes) :
    parse (sealed h payload signature).serialized = .ok (sealed h payload signature).parsed :=
  parse_text h payload signature

/-- Signing fails with the signature or not at all. -/
theorem signHeader_eq (signer : KeyPair) (h : ProtectedHeader) (payload : Bytes) :
    signHeader signer h payload =
      match signer.sign (Bytes.ofText (h.encoded ++ "." ++ Base64.toUrl payload)) with
      | .ok signature => .ok (sealed h payload signature)
      | .error e => .error (.key e) := by
  unfold signHeader
  cases hsign : signer.sign (Bytes.ofText (h.encoded ++ "." ++ Base64.toUrl payload)) with
  | error e =>
    simp only [hsign, bind, Except.bind, throw, throwThe, MonadExceptOf.throw]
  | ok signature =>
    simp only [hsign, bind, Except.bind, pure, Except.pure, parse_text]
    rfl

/-- A key that signs every text signs every message. -/
theorem exists_signHeader {signer : KeyPair} (hsigns : ∀ b, ∃ signature, signer.sign b = .ok signature)
    (h : ProtectedHeader) (payload : Bytes) : ∃ m, signHeader signer h payload = .ok m := by
  obtain ⟨signature, hsignature⟩ := hsigns (Bytes.ofText (h.encoded ++ "." ++ Base64.toUrl payload))
  rw [signHeader_eq, hsignature]
  exact ⟨_, rfl⟩

/-- What a signed message says: the header and the payload that were asked for, and a signature of
the signer for the text that a reader finds. -/
theorem signHeader_ok {signer : KeyPair} {h : ProtectedHeader} {payload : Bytes} {m : SignedJws}
    (hsign : signHeader signer h payload = .ok m) :
    parse m.serialized = .ok m.parsed ∧ m.parsed.header = h ∧ m.parsed.payload = payload
      ∧ signer.sign (Bytes.ofText m.parsed.signingInput) = .ok m.parsed.signature := by
  rw [signHeader_eq] at hsign
  split at hsign
  · rename_i signature hsignature
    cases hsign
    exact ⟨parse_sealed h payload signature, rfl, rfl, hsignature⟩
  · cases hsign

/-- The protected header of a signed message is the text of the header that was asked for. -/
theorem signHeader_header {signer : KeyPair} {h : ProtectedHeader} {payload : Bytes} {m : SignedJws}
    (hsign : signHeader signer h payload = .ok m) :
    ∃ j b, ofBytes? m.serialized = some j ∧ decoded j.header = .ok b ∧ Json.read? b = some h.toJson := by
  rw [signHeader_eq] at hsign
  split at hsign
  · cases hsign
    exact ⟨_, Bytes.ofText h.text, ofBytes?_text _, decoded_toUrl _, Json.read?_text _ h.fits_toJson⟩
  · cases hsign

end Jws

end Acme
