import Acme.Proofs.FirstFailure
import Acme.Proofs.IpAddress
import Acme.Proofs.Key.PublicKey
import Acme.Proofs.SigningRequest
import Acme.Proofs.SigningRequest.Reading

/-!
# Requests cover what they are made for

A request that is made for identifiers names exactly these, one by one and in their order, and the key
that signs it (`RequestInfo.Covers`). Making a request stops at the first identifier that cannot stand in
one; `SigningRequest.identifiers_covered` says which identifier that is for each error, and that whoever
reads the request finds in it what it was made for.
-/

namespace Acme

/-! ### What a request says -/

/-- An address that does not read as one. -/
def Identifier.Unreadable (i : Identifier) : Prop :=
  i.type = "ip" ∧ ∀ a, ¬ IpAddress.Writes i.value.toList a

/-- An identifier stands in a certificate as a name: a host by its text as it is, an address by the octets
of the address that its text writes. -/
inductive Identifier.StandsAs (i : Identifier) : AlternativeName → Prop
  | dns (htype : i.type = "dns") : StandsAs i (.dns (Bytes.ofText i.value))
  | ip {a : IpAddress} (htype : i.type = "ip") (h : IpAddress.Writes i.value.toList a) :
    StandsAs i (.ip a.octets)

namespace RequestInfo

variable {ids : List Identifier}

/-- A request is for identifiers and names a key. -/
structure Covers (info : RequestInfo) (ids : List Identifier) (k : KeyPair) : Prop where
  /-- There is one name for each identifier, in the same order. -/
  names : List.Forall₂ Identifier.StandsAs ids info.names
  /-- Addresses have as many octets as their kind has. -/
  octets : ∀ b, .ip b ∈ info.names → b.length = 4 ∨ b.length = 16
  /-- The subject is the first host, if there is one. -/
  subject : info.subject = (host? ids).map Bytes.ofText
  publicKey : PublicKey.ofInfo? info.publicInfo = some k.publicKey

theorem length_octets_of_standsAs {names : List AlternativeName}
    (h : List.Forall₂ Identifier.StandsAs ids names) {b : Bytes} (hmem : .ip b ∈ names) :
    b.length = 4 ∨ b.length = 16 := by
  induction h with
  | nil => cases hmem
  | cons hfirst _ ih =>
    rcases List.mem_cons.mp hmem with rfl | hmem
    · cases hfirst with
      | ip _ h => exact h.length_octets
    · exact ih hmem

/-- The first host has room in a subject. -/
def SubjectFits (ids : List Identifier) : Prop :=
  ∀ host, host? ids = some host → host ≠ "" ∧ host.length ≤ subjectLimit

/-! ### The steps -/

/-- The name that an identifier asks for, if it is of a kind that is known. -/
def requestedName (i : Identifier) : Except RequestError RequestedName :=
  if i.IsName then .ok (nameOf i) else .error (.unsupportedIdentifier i.type)

theorem requested_eq_mapM (ids : List Identifier) : requested ids = ids.mapM requestedName := by
  induction ids with
  | nil => rfl
  | cons i ids ih =>
    rw [List.mapM_cons, ← ih, requested, requestedName, nameOf]
    by_cases hdns : i.type = "dns"
    · have hname : i.IsName := .inl hdns
      rw [if_pos hdns, if_pos hdns, if_pos hname]
      cases requested ids <;> rfl
    · rw [if_neg hdns, if_neg hdns]
      by_cases hip : i.type = "ip"
      · have hname : i.IsName := .inr hip
        rw [if_pos hip, if_pos hname]
        cases requested ids <;> rfl
      · have hforeign : ¬ i.IsName := not_or.mpr ⟨hdns, hip⟩
        rw [if_neg hip, if_neg hforeign]
        rfl

theorem requested_eq_error_iff {e : RequestError} : requested ids = .error e
    ↔ ∃ i, IsFirst (fun i => ¬ i.IsName) ids i ∧ e = .unsupportedIdentifier i.type := by
  have herror (i : Identifier) (e : RequestError) : requestedName i = .error e
      ↔ ¬ i.IsName ∧ e = .unsupportedIdentifier i.type := by
    unfold requestedName
    split <;> simp_all [eq_comm]
  rw [requested_eq_mapM, mapM_eq_error_iff]
  simp only [herror, exists_and_left, exists_eq, and_true]
  exact exists_congr fun i => and_congr_right fun ⟨_, _, _, hi, _⟩ => and_iff_right hi

theorem requested_eq_ok_iff {names : List RequestedName} :
    requested ids = .ok names ↔ (∀ i ∈ ids, i.IsName) ∧ names = ids.map nameOf := by
  constructor
  · intro h
    have hall : ∀ i ∈ ids, i.IsName := by
      by_contra hforeign
      obtain ⟨i, hi⟩ := exists_isFirst (by simpa using hforeign : ∃ i ∈ ids, ¬ i.IsName)
      rw [requested_eq_error_iff.mpr ⟨i, hi, rfl⟩] at h
      cases h
    rw [requested_of_isName hall] at h
    exact ⟨hall, (Except.ok.inj h).symm⟩
  · rintro ⟨hall, rfl⟩
    exact requested_of_isName hall

theorem alternative_nameOf_dns {i : Identifier} (h : i.type = "dns") :
    alternative (nameOf i) = .ok (.dns (Bytes.ofText i.value)) := by
  rw [nameOf, if_pos h, alternative]

theorem alternative_nameOf_ip {i : Identifier} (h : i.type = "ip") :
    alternative (nameOf i) = match IpAddress.ofText? i.value with
      | some a => .ok (.ip a.octets)
      | none => .error (.invalidAddress i.value) := by
  have hdns : ¬ i.type = "dns" := by simp [h]
  rw [nameOf, if_neg hdns]
  rfl

/-- How a name stands in a certificate. -/
theorem alternative_eq_ok_iff {i : Identifier} (hi : i.IsName) {name : AlternativeName} :
    alternative (nameOf i) = .ok name ↔ i.StandsAs name := by
  constructor
  · intro h
    rcases hi with htype | htype
    · rw [alternative_nameOf_dns htype] at h
      cases h
      exact .dns htype
    · rw [alternative_nameOf_ip htype] at h
      split at h
      · rename_i a ha
        cases h
        exact .ip htype (IpAddress.ofText?_eq_some_iff.mp ha)
      · cases h
  · intro h
    cases h with
    | dns htype => exact alternative_nameOf_dns htype
    | ip htype h => rw [alternative_nameOf_ip htype, IpAddress.ofText?_eq_some_iff.mpr h]

theorem alternative_eq_error_iff {i : Identifier} (hi : i.IsName) {e : RequestError} :
    alternative (nameOf i) = .error e ↔ i.Unreadable ∧ e = .invalidAddress i.value := by
  have hnone : (∀ a, ¬ IpAddress.Writes i.value.toList a) ↔ IpAddress.ofText? i.value = none := by
    simp [Option.eq_none_iff_forall_ne_some, IpAddress.ofText?_eq_some_iff]
  rcases hi with htype | htype
  · simp [alternative_nameOf_dns htype, Identifier.Unreadable, htype]
  · rw [alternative_nameOf_ip htype, Identifier.Unreadable, hnone]
    cases IpAddress.ofText? i.value <;> simp [htype, eq_comm]

/-- Whether names can be made of identifiers, and of which. -/
theorem alternatives_eq_ok_iff (hids : ∀ i ∈ ids, i.IsName) {names : List AlternativeName} :
    (ids.map nameOf).mapM alternative = .ok names ↔ List.Forall₂ Identifier.StandsAs ids names := by
  rw [mapM_eq_ok_iff, List.forall₂_map_left_iff]
  induction ids generalizing names with
  | nil => rw [List.forall₂_nil_left_iff, List.forall₂_nil_left_iff]
  | cons i ids ih =>
    rw [List.forall₂_cons_left_iff, List.forall₂_cons_left_iff]
    simp only [alternative_eq_ok_iff (hids i (by simp)), ih fun i hi => hids i (by simp [hi])]

theorem alternatives_eq_error_iff (hids : ∀ i ∈ ids, i.IsName) {e : RequestError} :
    (ids.map nameOf).mapM alternative = .error e
      ↔ ∃ i, IsFirst Identifier.Unreadable ids i ∧ e = .invalidAddress i.value := by
  have hbad (i : Identifier) (hi : i ∈ ids) :
      (∃ e, alternative (nameOf i) = .error e) ↔ i.Unreadable := by
    simp [alternative_eq_error_iff (hids i hi)]
  rw [List.mapM_map, mapM_eq_error_iff]
  refine exists_congr fun i => ?_
  simp only [Function.comp_apply, isFirst_congr hbad]
  refine and_congr_right fun hfirst => ?_
  obtain ⟨before, after, heq, hi, -⟩ := hfirst
  rw [alternative_eq_error_iff (hids i (by simp [heq])), and_iff_right hi]

/-- What is asked for if there is anything to ask for. -/
theorem make_of_ne_nil (hne : ids ≠ []) (publicInfo : Except KeyError Bytes) :
    ¬ SubjectFits ids ∧ make (ids.map nameOf) publicInfo = .error .subjectLength
      ∨ SubjectFits ids ∧ make (ids.map nameOf) publicInfo
        = (ids.map nameOf).mapM alternative >>= fun names =>
          (⟨(host? ids).map Bytes.ofText, ·, names⟩) <$> publicInfo.mapError fun _ => .signing := by
  have hsome : (ids.map nameOf).isEmpty = false := by simpa using hne
  have hfits : SubjectFits ids
      ↔ ¬ (host? ids).any fun host => host.isEmpty || subjectLimit < host.length := by
    unfold SubjectFits
    cases host? ids <;> simp
  rw [make, hsome, firstHost?_map, if_neg Bool.false_ne_true, hfits]
  dsimp only
  split
  · rename_i hlong
    exact .inl ⟨not_not_intro hlong, rfl⟩
  · rename_i hshort
    refine .inr ⟨hshort, ?_⟩
    cases (ids.map nameOf).mapM alternative <;> rfl

end RequestInfo

namespace SigningRequest

open RequestInfo

variable {ids : List Identifier} {k : KeyPair}

/-- How making a request for identifiers can end. -/
inductive Outcome (ids : List Identifier) (k : KeyPair) : Except RequestError SigningRequest → Prop
  | unsupported {i : Identifier} (h : IsFirst (fun i => ¬ i.IsName) ids i) :
    Outcome ids k (.error (.unsupportedIdentifier i.type))
  | noNames (h : ids = []) : Outcome ids k (.error .noNames)
  | subjectLength (hne : ids ≠ []) (hnames : ∀ i ∈ ids, i.IsName) (h : ¬ SubjectFits ids) :
    Outcome ids k (.error .subjectLength)
  | unreadable {i : Identifier} (hnames : ∀ i ∈ ids, i.IsName) (hfits : SubjectFits ids)
    (h : IsFirst Identifier.Unreadable ids i) : Outcome ids k (.error (.invalidAddress i.value))
  | unsigned {names : List AlternativeName} (hne : ids ≠ [])
    (h : List.Forall₂ Identifier.StandsAs ids names) : Outcome ids k (.error .signing)
  | signed {names : List AlternativeName} {info : RequestInfo} {signature : Bytes} (hne : ids ≠ [])
    (h : List.Forall₂ Identifier.StandsAs ids names) (hpublic : k.publicInfo = .ok info.publicInfo)
    (hinfo : info = ⟨(host? ids).map Bytes.ofText, info.publicInfo, names⟩) :
    Outcome ids k (.ok ⟨info.toDer, k.algorithm, signature⟩)

theorem outcome (ids : List Identifier) (k : KeyPair) : Outcome ids k (forIdentifiers ids k) := by
  rw [forIdentifiers]
  cases hrequested : requested ids with
  | error e =>
    -- the errors are found in this order: types, subject, addresses, key
    obtain ⟨i, hfirst, rfl⟩ := requested_eq_error_iff.mp hrequested
    exact .unsupported hfirst
  | ok requests =>
    obtain ⟨hnames, rfl⟩ := requested_eq_ok_iff.mp hrequested
    show Outcome ids k (forNames (ids.map nameOf) k)
    rw [forNames]
    by_cases hne : ids = []
    · subst hne
      exact .noNames rfl
    · rcases make_of_ne_nil hne k.publicInfo with ⟨hlong, hmake⟩ | ⟨hfits, hmake⟩
      · rw [hmake]
        exact .subjectLength hne hnames hlong
      · rw [hmake]
        cases hall : (ids.map nameOf).mapM alternative with
        | error e =>
          obtain ⟨i, hfirst, rfl⟩ := (alternatives_eq_error_iff hnames).mp hall
          exact .unreadable hnames hfits hfirst
        | ok names =>
          have hstands := (alternatives_eq_ok_iff hnames).mp hall
          cases hpublic : k.publicInfo with
          | error e => exact .unsigned hne hstands
          | ok publicInfo =>
            simp only [Functor.map, Except.map, Except.mapError, bind, Except.bind]
            split
            · exact .signed hne hstands hpublic rfl
            · exact .unsigned hne hstands

/-- Identifiers that stand in a request are hosts, and addresses that read as such. -/
theorem readable_of_standsAs {names : List AlternativeName}
    (h : List.Forall₂ Identifier.StandsAs ids names) : ∀ i ∈ ids, i.IsName ∧ ¬ i.Unreadable := by
  induction h with
  | nil => exact List.forall_mem_nil _
  | cons hfirst _ ih =>
    refine List.forall_mem_cons.mpr ⟨?_, ih⟩
    cases hfirst with
    | dns htype => exact ⟨.inl htype, fun h => by simp [h.1] at htype⟩
    | ip htype h => exact ⟨.inr htype, fun hunreadable => hunreadable.2 _ h⟩

/-- What is read from a request is what it was made for. -/
theorem covers_of_signed {names : List AlternativeName} {signature : Bytes}
    (hnames : List.Forall₂ Identifier.StandsAs ids names) {info : RequestInfo}
    (hpublic : k.publicInfo = .ok info.publicInfo)
    (hinfo : info = ⟨(host? ids).map Bytes.ofText, info.publicInfo, names⟩)
    (hroom : (SigningRequest.mk info.toDer k.algorithm signature).toDer.length < Bytes.capacity 127) :
    ofDer? (SigningRequest.mk info.toDer k.algorithm signature).toDer
        = some ⟨info.toDer, k.algorithm, signature⟩
      ∧ RequestInfo.ofDer? info.toDer = some info ∧ info.Covers ids k := by
  have hkey : info.publicInfo = (PublicKey.item k).bytes := (PublicKey.bytes_item hpublic).symm
  have hinfoRoom : info.toDer.length < Bytes.capacity 127 :=
    Nat.lt_trans (Der.length_lt_sequence (by simp)) hroom
  have hkeyRoom : info.publicInfo.length < Bytes.capacity 127 :=
    Nat.lt_trans (Der.length_lt_sequence (by simp)) hinfoRoom
  refine ⟨ofDer?_toDer (RequestInfo.bytes_item hkey).symm hroom, RequestInfo.ofDer?_toDer hkey hinfoRoom, ?_⟩
  have hread : PublicKey.ofInfo? info.publicInfo = some k.publicKey :=
    PublicKey.ofInfo?_publicInfo hpublic hkeyRoom
  rw [hinfo]
  exact ⟨hnames, fun b hb => length_octets_of_standsAs hnames hb, rfl, hread⟩

theorem forIdentifiers_eq_noNames_iff : forIdentifiers ids k = .error .noNames ↔ ids = [] := by
  constructor
  · intro hr
    have houtcome := outcome ids k
    rw [hr] at houtcome
    cases houtcome with
    | noNames h => exact h
  · rintro rfl
    rfl

theorem forIdentifiers_eq_unsupported_iff {type : String} :
    forIdentifiers ids k = .error (.unsupportedIdentifier type)
      ↔ ∃ i, IsFirst (fun i => ¬ i.IsName) ids i ∧ i.type = type := by
  constructor
  · intro hr
    have houtcome := outcome ids k
    rw [hr] at houtcome
    cases houtcome with
    | unsupported h => exact ⟨_, h, rfl⟩
  · rintro ⟨i, hfirst, rfl⟩
    rw [forIdentifiers, requested_eq_error_iff.mpr ⟨i, hfirst, rfl⟩]
    rfl

theorem forIdentifiers_eq_invalidAddress_iff {text : String} :
    forIdentifiers ids k = .error (.invalidAddress text)
      ↔ (∀ i ∈ ids, i.IsName) ∧ SubjectFits ids
        ∧ ∃ i, IsFirst Identifier.Unreadable ids i ∧ i.value = text := by
  have houtcome := outcome ids k
  constructor
  · intro hr
    rw [hr] at houtcome
    cases houtcome with
    | unreadable hnames hfits h => exact ⟨hnames, hfits, _, h, rfl⟩
  · rintro ⟨hnames, hfits, i, hfirst, rfl⟩
    obtain ⟨hmem, hunreadable⟩ := hfirst.mem
    -- every other end contradicts what is known of the identifiers
    generalize forIdentifiers ids k = answer at houtcome
    cases houtcome with
    | unsupported h => exact absurd (hnames _ h.mem.1) h.mem.2
    | noNames h => simp [h] at hmem
    | subjectLength _ _ h => exact absurd hfits h
    | unreadable _ _ h => rw [hfirst.unique h]
    | unsigned _ h => exact absurd hunreadable (readable_of_standsAs h i hmem).2
    | signed _ h _ _ => exact absurd hunreadable (readable_of_standsAs h i hmem).2

/-- Whoever reads a request that was made for identifiers with a key finds one name for each identifier in it,
in the same order, the first host as its subject, and the public key. A request is
refused for want of names only if there are no identifiers, because of its type only the first identifier
of a type that is not known, and because of its text only the first address that does not read as one,
when nothing before that was wrong. -/
theorem identifiers_covered (ids : List Identifier) (k : KeyPair) :
    (∀ r, forIdentifiers ids k = .ok r → r.toDer.length < Bytes.memoryLimit →
      ofDer? r.toDer = some r ∧ ∃ info, RequestInfo.ofDer? r.info = some info ∧ info.Covers ids k)
    ∧ (forIdentifiers ids k = .error .noNames ↔ ids = [])
    ∧ (∀ type, forIdentifiers ids k = .error (.unsupportedIdentifier type)
      ↔ ∃ i, IsFirst (fun i => ¬ i.IsName) ids i ∧ i.type = type)
    ∧ ∀ text, forIdentifiers ids k = .error (.invalidAddress text)
      ↔ (∀ i ∈ ids, i.IsName) ∧ SubjectFits ids
        ∧ ∃ i, IsFirst Identifier.Unreadable ids i ∧ i.value = text := by
  refine ⟨?_, forIdentifiers_eq_noNames_iff, fun _ => forIdentifiers_eq_unsupported_iff,
    fun _ => forIdentifiers_eq_invalidAddress_iff⟩
  intro r hr hroom
  have houtcome := outcome ids k
  rw [hr] at houtcome
  cases houtcome with
  | @signed names info signature hne h hpublic hinfo =>
    obtain ⟨hread, hcovers⟩ :=
      covers_of_signed h hpublic hinfo (Nat.lt_trans hroom Bytes.memoryLimit_lt)
    exact ⟨hread, info, hcovers⟩

/-- Hosts and addresses in turn, with signs that have a meaning of their own elsewhere. -/
def mixed : List Identifier :=
  [.ip "2001:db8::c000:207", .dns "a,DNS:b.例", .dns "*.a.example", .ip "192.0.2.7"]

theorem mixed_covered :
    KeyPair.ofDer .ecdsaP256 (EcKey.unit.encode .plain true) = .ok (.ec .unit)
      ∧ ∃ r, forIdentifiers mixed (.ec .unit) = .ok r ∧ r.toDer.length < Bytes.memoryLimit
        ∧ ofDer? r.toDer = some r
        ∧ ∃ info, RequestInfo.ofDer? r.info = some info ∧ info.Covers mixed (.ec .unit) := by
  have hmade : (forIdentifiers mixed (.ec .unit)).toOption.any
      fun r => decide (r.toDer.length < Bytes.memoryLimit) := by decide +kernel
  cases hr : forIdentifiers mixed (.ec .unit) with
  | error e =>
    rw [hr] at hmade
    cases hmade
  | ok r =>
    have hroom : r.toDer.length < Bytes.memoryLimit := by
      rw [hr] at hmade
      exact of_decide_eq_true hmade
    exact ⟨EcKey.read_unit, r, rfl, hroom, (identifiers_covered mixed (.ec .unit)).1 r hr hroom⟩

end SigningRequest

end Acme
