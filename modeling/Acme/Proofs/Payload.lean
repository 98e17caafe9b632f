import Acme.Payload
import Acme.Proofs.FirstFailure
import Acme.Proofs.IpAddress
import Acme.Proofs.Jwk
import Acme.Proofs.Resource

/-!
# Payloads are checked, written and read

A payload is written exactly if it is acceptable (`Payload.error?_eq_none_iff`). What is wrong with one
that is not acceptable is told as `Payload.Refused` says (`Payload.error?_eq_some_iff`): of identifiers
the first counts that may not be ordered. What was written is read as the payload
(`Payload.ofBytes?_of_toBytes`), whatever its texts contain.
-/

namespace Acme

/-! ### Identifiers that may be ordered -/

namespace Identifier

/-- An identifier that may be ordered. -/
inductive Orderable : Identifier → Prop
  | dns {value : String} (h : value ≠ "") : Orderable (.dns value)
  | ip {value : String} {a : IpAddress} (h : IpAddress.ofText? value = some a) : Orderable (.ip value)

/-- What is wrong with an identifier: it is of a foreign type, or its value is not one of its type. -/
inductive Faulty (i : Identifier) : PayloadError → Prop
  | foreign (hdns : i.type ≠ "dns") (hip : i.type ≠ "ip") : Faulty i (.unsupportedIdentifier i.type)
  | noName (htype : i.type = "dns") (hvalue : i.value = "") : Faulty i (.invalidIdentifier i.value)
  | noAddress (htype : i.type = "ip") (h : ∀ a, ¬ IpAddress.Writes i.value.toList a) :
    Faulty i (.invalidIdentifier i.value)

theorem orderable_iff (i : Identifier) :
    i.Orderable
      ↔ i.type = "dns" ∧ i.value ≠ "" ∨ i.type = "ip" ∧ ∃ a, IpAddress.Writes i.value.toList a := by
  constructor
  · intro h
    cases h with
    | dns h => exact .inl ⟨rfl, h⟩
    | ip h => exact .inr ⟨rfl, _, IpAddress.ofText?_eq_some_iff.mp h⟩
  · obtain ⟨type, value⟩ := i
    rintro (⟨rfl, h⟩ | ⟨rfl, a, ha⟩)
    · exact .dns h
    · exact .ip (IpAddress.ofText?_eq_some_iff.mpr ha)

end Identifier

namespace Payload

variable {i : Identifier} {ids : List Identifier} {p : Payload} {e : PayloadError}

theorem identifierError?_eq_none_iff : identifierError? i = none ↔ i.Orderable := by
  obtain ⟨type, value⟩ := i
  constructor
  · intro h
    -- type by type: a host must have a name, an address must be read, anything else is refused
    unfold identifierError? at h
    split at h
    · rename_i htype
      obtain rfl : type = "dns" := htype
      split at h
      · cases h
      · rename_i hvalue
        exact .dns (by simpa using hvalue)
    · split at h
      · rename_i htype
        obtain rfl : type = "ip" := htype
        split at h
        · rename_i hvalue
          obtain ⟨a, ha⟩ := Option.isSome_iff_exists.mp hvalue
          exact .ip ha
        · cases h
      · cases h
  · intro h
    cases h with
    | dns h => simp [identifierError?, h]
    | ip h => simp [identifierError?, h]

theorem identifierError?_eq_some_iff : identifierError? i = some e ↔ i.Faulty e := by
  constructor
  · intro h
    unfold identifierError? at h
    split at h
    · rename_i htype
      split at h
      · rename_i hvalue
        cases h
        exact .noName htype (by simpa using hvalue)
      · cases h
    · rename_i hdns
      split at h
      · rename_i htype
        split at h
        · cases h
        · rename_i hvalue
          cases h
          -- that no address is written like this is what the reader has found
          refine .noAddress htype fun a ha => hvalue ?_
          rw [IpAddress.ofText?_eq_some_iff.mpr ha]
          rfl
      · rename_i hip
        cases h
        exact .foreign hdns hip
  · intro h
    cases h with
    | foreign hdns hip => simp [identifierError?, hdns, hip]
    | noName htype hvalue => simp [identifierError?, htype, hvalue]
    | noAddress htype h =>
      have hnone : IpAddress.ofText? i.value = none :=
        Option.eq_none_iff_forall_ne_some.mpr fun a ha => h a (IpAddress.ofText?_eq_some_iff.mp ha)
      simp [identifierError?, htype, hnone]

/-- An order is not refused exactly if it is for some identifiers, all of which may be ordered. -/
theorem error?_newOrder_eq_none_iff :
    (newOrder ids).error? = none ↔ ids ≠ [] ∧ ∀ i ∈ ids, i.Orderable := by
  rw [error?]
  cases ids with
  | nil => simp
  | cons first rest =>
    rw [List.isEmpty_cons, if_neg Bool.false_ne_true, List.findSome?_eq_none_iff]
    simp [identifierError?_eq_none_iff]

/-- An order for no identifiers is refused as such, any other for the first that may not be ordered. -/
theorem error?_newOrder_eq_some_iff :
    (newOrder ids).error? = some e
      ↔ ids = [] ∧ e = .noIdentifiers ∨ ∃ i, IsFirst (¬ ·.Orderable) ids i ∧ i.Faulty e := by
  have hbad (i : Identifier) : identifierError? i ≠ none ↔ ¬ i.Orderable :=
    not_congr identifierError?_eq_none_iff
  rw [error?]
  cases ids with
  | nil =>
    have hnone : ¬ ∃ i : Identifier, IsFirst (¬ ·.Orderable) [] i ∧ i.Faulty e :=
      fun ⟨i, hfirst, _⟩ => List.not_mem_nil hfirst.mem.1
    rw [List.isEmpty_nil, if_pos rfl, or_iff_left hnone, Option.some_inj, eq_comm]
    exact (and_iff_right rfl).symm
  | cons first rest =>
    rw [List.isEmpty_cons, if_neg Bool.false_ne_true, findSome?_eq_some_iff]
    simp only [hbad, identifierError?_eq_some_iff, List.cons_ne_nil, false_and, false_or]

/-! ### Acceptable payloads -/

/-- The payloads that are not refused. -/
def Acceptable : Payload → Prop
  | newAccount _ agreed => agreed = true
  | updateAccount contact => contact ≠ []
  | deactivate _ | challenge => True
  | newOrder ids => ids ≠ [] ∧ ∀ i ∈ ids, i.Orderable
  | finalize csr => csr ≠ ""
  | keyChange account _ => account ≠ ""
  | revoke certificate _ => certificate ≠ ""

/-- Why payloads are refused. -/
inductive Refused : Payload → PayloadError → Prop
  | newAccount (contact : List String) : Refused (.newAccount contact false) .termsNotAgreed
  | updateAccount : Refused (.updateAccount []) .missingContact
  | noIdentifiers : Refused (.newOrder []) .noIdentifiers
  | identifier {ids : List Identifier} {i : Identifier} {e : PayloadError}
    (hfirst : IsFirst (¬ ·.Orderable) ids i) (h : i.Faulty e) : Refused (.newOrder ids) e
  | finalize : Refused (.finalize "") (.emptyField "csr")
  | keyChange (oldKey : Jwk) : Refused (.keyChange "" oldKey) (.emptyField "account")
  | revoke (reason : Option UInt8) : Refused (.revoke "" reason) (.emptyField "certificate")

theorem error?_eq_none_iff : p.error? = none ↔ p.Acceptable := by
  cases p with
  | newOrder ids => exact error?_newOrder_eq_none_iff
  | _ => simp [error?, Acceptable]

theorem error?_eq_some_iff : p.error? = some e ↔ p.Refused e := by
  constructor
  · intro h
    -- only a list of identifiers can be refused for more than one reason
    cases p with
    | newOrder ids =>
      obtain ⟨rfl, rfl⟩ | ⟨i, hfirst, hi⟩ := error?_newOrder_eq_some_iff.mp h
      · exact .noIdentifiers
      · exact .identifier hfirst hi
    | newAccount contact agreed =>
      obtain ⟨rfl, rfl⟩ : agreed = false ∧ _ = e := by simpa [error?] using h
      exact .newAccount contact
    | updateAccount contact =>
      obtain ⟨rfl, rfl⟩ : contact = [] ∧ _ = e := by simpa [error?] using h
      exact .updateAccount
    | finalize csr =>
      obtain ⟨rfl, rfl⟩ : csr = "" ∧ _ = e := by simpa [error?] using h
      exact .finalize
    | keyChange account oldKey =>
      obtain ⟨rfl, rfl⟩ : account = "" ∧ _ = e := by simpa [error?] using h
      exact .keyChange oldKey
    | revoke certificate reason =>
      obtain ⟨rfl, rfl⟩ : certificate = "" ∧ _ = e := by simpa [error?] using h
      exact .revoke reason
    | deactivate status => cases h
    | challenge => cases h
  · intro h
    cases h with
    | identifier hfirst h => exact error?_newOrder_eq_some_iff.mpr (.inr ⟨_, hfirst, h⟩)
    | _ => rfl

theorem toBytes_eq_error_iff : p.toBytes = .error e ↔ p.Refused e := by
  rw [toBytes, ← error?_eq_some_iff]
  cases p.error? <;> simp

theorem toBytes_eq_ok_iff {b : Bytes} :
    p.toBytes = .ok b ↔ p.Acceptable ∧ b = Bytes.ofText p.toJson.text := by
  rw [toBytes, ← error?_eq_none_iff]
  cases p.error? <;> simp [eq_comm]

/-! ### Reading what was written -/

open Json

theorem stable_reason (reason : UInt8) : Stable Node.octet? (nat ·.toNat) reason where
  plain := Int.natCast_nonneg reason.toNat
  read_node := by
    have hread : (nat reason.toNat).node.nat? 8 = some reason.toNat :=
      Node.nat?_decimals (by decide) reason.toNat_lt
    rw [Node.octet?, hread]
    exact congrArg some UInt8.ofNat_toNat
  ne_null := nofun

theorem stable_jwk (k : Jwk) {room : Nat} (h : 0 < room) :
    Stable (Jwk.ofNode? room) Jwk.toJson k where
  plain := (k.fits_toJson h).plain
  read_node := k.ofNode?_toJson h
  ne_null := by cases k <;> exact nofun

/-- The names of the members of a payload. -/
def memberNames : Kind → List String
  | .newAccount => ["contact", "termsOfServiceAgreed"]
  | .updateAccount => ["contact"]
  | .deactivate => ["status"]
  | .newOrder => ["identifiers"]
  | .challenge => []
  | .finalize => ["csr"]
  | .keyChange => ["account", "oldKey"]
  | .revoke => ["certificate", "reason"]

theorem toJson_eq (p : Payload) : p.toJson = object p.toJson.members := by
  cases p <;> rfl

/-- The record that a written payload is read as. -/
theorem exists_record (p : Payload) :
    ∃ r, p.toJson.node.record? (memberNames p.kind) = some r ∧ r.byPlace = false
      ∧ ∀ name ∈ memberNames p.kind, r.find? name = (p.toJson.members.lookup name).map node := by
  have hnodup : (p.toJson.members.map (·.1)).Nodup := by
    cases p with
    | revoke certificate reason => cases reason <;> simp [toJson, members, member?]
    | _ => simp [toJson, members]
  rw [toJson_eq]
  exact Node.exists_record?_node _ _ hnodup

/-- A payload is read from its own written form. -/
theorem ofNode?_node (p : Payload) : ofNode? p.kind p.toJson.node = some p := by
  obtain ⟨r, hr, hplace, hfind⟩ := p.exists_record
  generalize p.toJson.node = n at hr
  -- the members of each kind are found under their names
  cases p with
  | newAccount contact agreed =>
    simp only [kind, memberNames, List.forall_mem_cons] at hr hfind
    obtain ⟨hcontact, hagreed, -⟩ := hfind
    simp [kind, ofNode?, hr, (stable_strings contact).required hcontact,
      (stable_bool agreed).required hagreed]
  | updateAccount contact =>
    simp only [kind, memberNames, List.forall_mem_cons] at hr hfind
    obtain ⟨hcontact, -⟩ := hfind
    simp [kind, ofNode?, hr, (stable_strings contact).required hcontact]
  | deactivate status =>
    simp only [kind, memberNames, List.forall_mem_cons] at hr hfind
    obtain ⟨hstatus, -⟩ := hfind
    simp [kind, ofNode?, hr, (stable_text status).required hstatus]
  | newOrder ids =>
    have hstable := stable_list fun i (_ : i ∈ ids) => i.stable
    simp only [kind, memberNames, List.forall_mem_cons] at hr hfind
    obtain ⟨hids, -⟩ := hfind
    simp [kind, ofNode?, hr, hstable.required hids]
  | challenge =>
    simp only [kind, memberNames] at hr
    simp [kind, ofNode?, hr]
  | finalize csr =>
    simp only [kind, memberNames, List.forall_mem_cons] at hr hfind
    obtain ⟨hcsr, -⟩ := hfind
    simp [kind, ofNode?, hr, (stable_text csr).required hcsr]
  | keyChange account oldKey =>
    have hroom : 0 < Node.nestingLimit - 1 := by decide
    simp only [kind, memberNames, List.forall_mem_cons] at hr hfind
    obtain ⟨haccount, hkey, -⟩ := hfind
    simp [kind, ofNode?, hr, (stable_text account).required haccount,
      (stable_jwk oldKey hroom).required hkey]
  | revoke certificate reason =>
    have hstable : ∀ k ∈ reason, Stable Node.octet? (nat ·.toNat) k := fun k _ => stable_reason k
    have hlookup : (revoke certificate reason).toJson.members.lookup "reason"
        = reason.map (nat ·.toNat) := by
      cases reason <;> rfl
    simp only [kind, memberNames, List.forall_mem_cons, hlookup] at hr hfind
    obtain ⟨hcertificate, hreason, -⟩ := hfind
    simp [kind, ofNode?, hr, (stable_text certificate).required hcertificate,
      Stable.nullable hstable hplace hreason]

theorem plain_toJson (p : Payload) : Plain p.toJson := by
  cases p with
  | newAccount contact agreed =>
    simpa [toJson, Plain, MembersPlain] using (stable_strings contact).plain
  | updateAccount contact =>
    simpa [toJson, Plain, MembersPlain] using (stable_strings contact).plain
  | newOrder ids =>
    have hids := (stable_list fun i (_ : i ∈ ids) => i.stable).plain
    simpa [toJson, Plain, MembersPlain] using hids
  | keyChange account oldKey =>
    simpa [toJson, Plain, MembersPlain] using (stable_jwk oldKey Nat.one_pos).plain
  | revoke certificate reason => simp [toJson, Plain, MembersPlain, nat]
  | _ => simp [toJson, Plain, MembersPlain]

/-- What was written is read as the payload. -/
theorem ofBytes?_of_toBytes {b : Bytes} (h : p.toBytes = .ok b) :
    ofBytes? p.kind b = some p := by
  obtain ⟨-, rfl⟩ := toBytes_eq_ok_iff.mp h
  rw [ofBytes?, Node.read_text _ p.plain_toJson]
  exact p.ofNode?_node

/-! ### Contacts -/

/-- The contacts that a payload has. -/
def contacts : Payload → List String
  | newAccount contact _ | updateAccount contact => contact
  | _ => []

/-- A contact is left as it is exactly if it has a scheme. -/
theorem normalContact_eq_self_iff {contact : String} :
    normalContact contact = contact ↔ ':' ∈ contact.toList := by
  unfold normalContact
  by_cases h : ':' ∈ contact.toList
  · simp [h]
  · have hlonger : "mailto:" ++ contact ≠ contact := by
      intro heq
      have hlength := congrArg String.length heq
      rw [String.length_append, Nat.add_eq_right] at hlength
      exact absurd hlength (by decide)
    simp [h, hlonger]

theorem hasScheme_normalContact (contact : String) : ':' ∈ (normalContact contact).toList := by
  unfold normalContact
  split
  · rename_i h
    simpa using h
  · simp

/-- Contacts of a payload that was made are not changed again. -/
theorem map_normalContact_idem (contact : List String) :
    (contact.map normalContact).map normalContact = contact.map normalContact := by
  rw [List.map_map]
  exact List.map_congr_left fun c _ => normalContact_eq_self_iff.mpr (hasScheme_normalContact c)

/-- So are contacts that all have a scheme, and no others. -/
theorem map_normalContact_eq_self_iff {contact : List String} :
    contact.map normalContact = contact ↔ ∀ c ∈ contact, ':' ∈ c.toList := by
  have hid : contact.map normalContact = contact.map id ↔ ∀ c ∈ contact, normalContact c = c :=
    List.map_inj_left
  rw [List.map_id] at hid
  simpa only [normalContact_eq_self_iff] using hid

/-! ### Every payload -/

/-- A payload is written exactly if the check passes it, which it does with those that are acceptable; any
other is refused for the reason that it has. What was written is read as the payload. An identifier may be
ordered if it is the name of a host that is not empty or an address. A signing request or a certificate is
written unless it is empty, and its octets are read back.
Contacts of payloads are not changed again, and are not changed at all exactly if each has a scheme. -/
theorem bytes_lawful :
    (∀ p : Payload, ((∃ b, p.toBytes = .ok b) ↔ p.error? = none) ∧ (p.error? = none ↔ p.Acceptable)
      ∧ (∀ e, p.toBytes = .error e ↔ p.Refused e)
      ∧ ∀ b, p.toBytes = .ok b → ofBytes? p.kind b = some p)
    ∧ (∀ i : Identifier, i.Orderable
      ↔ i.type = "dns" ∧ i.value ≠ "" ∨ i.type = "ip" ∧ ∃ a, IpAddress.Writes i.value.toList a)
    ∧ (∀ der, ((∃ b, (forFinalize der).toBytes = .ok b) ↔ der ≠ [])
      ∧ ∀ b, (forFinalize der).toBytes = .ok b →
        ∃ csr, ofBytes? .finalize b = some (finalize csr) ∧ Base64.ofUrl csr = .ok der)
    ∧ (∀ der reason, ((∃ b, (forRevoke der reason).toBytes = .ok b) ↔ der ≠ [])
      ∧ ∀ b, (forRevoke der reason).toBytes = .ok b →
        ∃ certificate, ofBytes? .revoke b = some (revoke certificate reason)
          ∧ Base64.ofUrl certificate = .ok der)
    ∧ ∀ contact, forNewAccount (forNewAccount contact).contacts = forNewAccount contact
      ∧ forUpdateAccount (forUpdateAccount contact).contacts = forUpdateAccount contact
      ∧ ((forNewAccount contact).contacts = contact ↔ ∀ c ∈ contact, ':' ∈ c.toList) := by
  -- the check decides what is written, and the octets decide nothing
  have hwritten (p : Payload) : (∃ b, p.toBytes = .ok b) ↔ p.Acceptable := by
    simp only [toBytes_eq_ok_iff, exists_and_left, exists_eq, and_true]
  refine ⟨fun p => ⟨(hwritten p).trans error?_eq_none_iff.symm, error?_eq_none_iff,
      fun _ => toBytes_eq_error_iff, fun _ => ofBytes?_of_toBytes⟩,
    Identifier.orderable_iff, ?finalize, ?revoke, ?contacts⟩
  case finalize =>
    intro der
    refine ⟨(hwritten _).trans (not_congr Base64.toUrl_eq_empty_iff), fun b h => ?_⟩
    exact ⟨_, ofBytes?_of_toBytes h, Base64.ofUrl_toUrl der⟩
  case revoke =>
    intro der reason
    refine ⟨(hwritten _).trans (not_congr Base64.toUrl_eq_empty_iff), fun b h => ?_⟩
    exact ⟨_, ofBytes?_of_toBytes h, Base64.ofUrl_toUrl der⟩
  case contacts =>
    intro contact
    refine ⟨?_, ?_, map_normalContact_eq_self_iff⟩
    · exact congrArg (newAccount · true) (map_normalContact_idem contact)
    · exact congrArg updateAccount (map_normalContact_idem contact)

/-- A certificate of two octets is revoked for reason four, and an order is refused for its second
identifier. -/
theorem revocation_and_order_read :
    (∃ b certificate, (forRevoke [251, 255] (some 4)).toBytes = .ok b
      ∧ ofBytes? .revoke b = some (revoke certificate (some 4))
      ∧ Base64.ofUrl certificate = .ok [251, 255])
    ∧ (newOrder [.dns "example.com", .ip "1.2.3", ⟨"email", "a@b"⟩]).Refused
      (.invalidIdentifier "1.2.3") := by
  obtain ⟨hpayload, -, -, hrevoke, -⟩ := bytes_lawful
  obtain ⟨hok, hread⟩ := hrevoke [251, 255] (some 4)
  obtain ⟨b, hb⟩ := hok.mpr (by decide)
  obtain ⟨certificate, hcertificate, hder⟩ := hread b hb
  exact ⟨⟨b, certificate, hb, hcertificate, hder⟩,
    ((hpayload _).2.2.1 (.invalidIdentifier "1.2.3")).mp (by decide +kernel)⟩

end Payload

end Acme
