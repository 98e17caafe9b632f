import Acme.Order
import Acme.Proofs.Key.PublicKey
import Acme.Proofs.Key.Support
import Acme.Proofs.Payload
import Acme.SigningRequest

/-!
# Requests for what was ordered

The identifiers that may be ordered (`Identifier.Orderable`) can all stand in a request as alternative
names. The first host is put into the subject as well, which takes no more than 64 characters: a request
for an order can be made unless its first host is longer than that (`SigningRequest.forIdentifiers_iff`).
-/

namespace Acme

/-! ### Identifiers that may be ordered -/

/-- The identifiers of hosts and addresses. -/
def Identifier.IsName (i : Identifier) : Prop := i.type = "dns" ∨ i.type = "ip"

instance (i : Identifier) : Decidable i.IsName := inferInstanceAs (Decidable (_ ∨ _))

theorem Identifier.Orderable.isName {i : Identifier} (h : i.Orderable) : i.IsName := by
  cases h with
  | dns _ => exact .inl rfl
  | ip _ => exact .inr rfl

/-- Names that are not empty may be ordered. -/
theorem Order.orderable_forNames {names : List String} (h : ∀ name ∈ names, name ≠ "") :
    ∀ i ∈ (forNames names).identifiers, i.Orderable := by
  intro i hi
  obtain ⟨name, hname, rfl⟩ := List.mem_map.mp hi
  unfold Identifier.ofName
  split
  · rename_i haddress
    obtain ⟨a, ha⟩ := Option.isSome_iff_exists.mp haddress
    exact .ip ha
  · exact .dns (h name hname)

/-! ### The names of a request -/

namespace RequestInfo

variable {ids : List Identifier}

/-- The name that an identifier asks for. -/
def nameOf (i : Identifier) : RequestedName := if i.type = "dns" then .dns i.value else .ip i.value

/-- The first host among identifiers. -/
def host? (ids : List Identifier) : Option String :=
  (ids.find? fun i => i.type = "dns").map (·.value)

/-- All hosts and addresses can be asked for. -/
theorem requested_of_isName (h : ∀ i ∈ ids, i.IsName) : requested ids = .ok (ids.map nameOf) := by
  induction ids with
  | nil => rfl
  | cons i rest ih =>
    rw [requested, ih fun i hi => h i (by simp [hi]), List.map_cons, nameOf]
    rcases h i (by simp) with htype | htype <;>
    · rw [htype]
      rfl

theorem requested_orderable (h : ∀ i ∈ ids, i.Orderable) : requested ids = .ok (ids.map nameOf) :=
  requested_of_isName fun i hi => (h i hi).isName

theorem firstHost?_map (ids : List Identifier) : firstHost? (ids.map nameOf) = host? ids := by
  induction ids with
  | nil => rfl
  | cons i rest ih =>
    rw [firstHost?] at ih ⊢
    by_cases h : i.type = "dns"
    · simp [host?, nameOf, h]
    · rw [host?] at ih ⊢
      simp [nameOf, h, ih]

/-- Whatever may be ordered can stand in a certificate. -/
theorem exists_alternatives (h : ∀ i ∈ ids, i.Orderable) :
    ∃ names, (ids.map nameOf).mapM alternative = .ok names := by
  induction ids with
  | nil => exact ⟨[], rfl⟩
  | cons i rest ih =>
    obtain ⟨names, hnames⟩ := ih fun i hi => h i (by simp [hi])
    obtain ⟨name, hname⟩ : ∃ name, alternative (nameOf i) = .ok name := by
      cases h i (by simp) with
      | dns _ => exact ⟨_, rfl⟩
      | @ip value a ha => exact ⟨.ip a.octets, by simp [nameOf, Identifier.ip, alternative, ha]⟩
    refine ⟨name :: names, ?_⟩
    rw [List.map_cons, List.mapM_cons, hname, hnames]
    rfl

/-- A host that was ordered is not empty. -/
theorem host?_ne_empty (h : ∀ i ∈ ids, i.Orderable) {host : String} (hhost : host? ids = some host) :
    host ≠ "" := by
  obtain ⟨i, hfind, rfl⟩ := Option.map_eq_some_iff.mp hhost
  have htype : i.type = "dns" := by simpa using List.find?_some hfind
  cases h i (List.mem_of_find?_eq_some hfind) with
  | dns h => exact h
  | ip _ => simp [Identifier.ip] at htype

theorem make_orderable (hne : ids ≠ []) (h : ∀ i ∈ ids, i.Orderable) (publicInfo : Bytes) :
    if (host? ids).any fun host => subjectLimit < host.length then
      make (ids.map nameOf) (.ok publicInfo) = .error .subjectLength
    else ∃ info, make (ids.map nameOf) (.ok publicInfo) = .ok info := by
  obtain ⟨names, hnames⟩ := exists_alternatives h
  have hsome : (ids.map nameOf).isEmpty = false := by simpa using hne
  -- the name of a host is not empty, so it can only be too long
  have hlength : (host? ids).any (fun host => host.isEmpty || subjectLimit < host.length)
      = (host? ids).any fun host => subjectLimit < host.length := by
    cases hhost : host? ids with
    | none => rfl
    | some host => simp [host?_ne_empty h hhost]
  have hmake : make (ids.map nameOf) (.ok publicInfo)
      = if (host? ids).any fun host => subjectLimit < host.length then .error .subjectLength
        else .ok ⟨(host? ids).map Bytes.ofText, publicInfo, names⟩ := by
    rw [make, hsome, firstHost?_map, if_neg Bool.false_ne_true]
    dsimp only
    rw [hlength, hnames]
    split <;> rfl
  rw [hmake]
  split
  · rfl
  · exact ⟨_, rfl⟩

end RequestInfo

/-! ### Requests -/

namespace SigningRequest

variable {ids : List Identifier} {k : KeyPair}

/-- A request for identifiers that were ordered can be made exactly if their first host fits into the
subject. -/
theorem forIdentifiers_iff (hids : (Payload.newOrder ids).error? = none)
    (hsigns : ∀ info, ∃ signature, k.signDer info = .ok signature) :
    ((∃ r, forIdentifiers ids k = .ok r)
        ↔ ∀ host, RequestInfo.host? ids = some host → host.length ≤ RequestInfo.subjectLimit)
      ∧ ∀ e, forIdentifiers ids k = .error e → e = .subjectLength := by
  obtain ⟨hne, horderable⟩ := Payload.error?_newOrder_eq_none_iff.mp hids
  -- a key that signs has a public key that can be written
  obtain ⟨publicInfo, hpublic⟩ : ∃ b, k.publicInfo = .ok b := by
    obtain ⟨signature, hsign⟩ := hsigns []
    exact k.exists_publicInfo hsign
  have hmake := RequestInfo.make_orderable hne horderable publicInfo
  rw [← hpublic] at hmake
  have hrequest : forIdentifiers ids k = forNames (ids.map RequestInfo.nameOf) k := by
    rw [forIdentifiers, RequestInfo.requested_orderable horderable]
    rfl
  have hshort : (∀ host, RequestInfo.host? ids = some host → host.length ≤ RequestInfo.subjectLimit)
      ↔ ¬ ((RequestInfo.host? ids).any fun host => RequestInfo.subjectLimit < host.length) := by
    cases RequestInfo.host? ids <;> simp
  rw [hrequest, hshort]
  split at hmake
  · rename_i hlong
    have herror : forNames (ids.map RequestInfo.nameOf) k = .error .subjectLength := by
      rw [forNames, hmake]
      rfl
    rw [herror]
    simp [hlong]
  · rename_i hlong
    obtain ⟨info, hinfo⟩ := hmake
    obtain ⟨signature, hsign⟩ := hsigns info.toDer
    have hok : forNames (ids.map RequestInfo.nameOf) k
        = .ok ⟨info.toDer, k.algorithm, signature⟩ := by
      simp only [forNames, hinfo, bind, Except.bind, hsign]
      rfl
    rw [hok]
    simp [hlong]

theorem forIdentifiers_forNames :
    ∃ r, forIdentifiers (Order.forNames ["192.0.2.7", "a.example", "*.a.example"]).identifiers .earlier
      = .ok r := by
  have horderable : (Payload.newOrder
      (Order.forNames ["192.0.2.7", "a.example", "*.a.example"]).identifiers).error? = none := by
    rw [Payload.error?_newOrder_eq_none_iff]
    exact ⟨by simp [Order.forNames, Order.new], Order.orderable_forNames (by simp)⟩
  have hsigns (info : Bytes) : ∃ signature, KeyPair.earlier.signDer info = .ok signature := ⟨_, rfl⟩
  rw [(forIdentifiers_iff horderable hsigns).1]
  have hhost : RequestInfo.host? (Order.forNames ["192.0.2.7", "a.example", "*.a.example"]).identifiers
      = some "a.example" := by decide +kernel
  intro host h
  rw [hhost] at h
  cases h
  decide

/-- A host whose labels have a usual length, but which has 65 characters. -/
def longHost : String := String.ofList (List.replicate 61 'a' ++ ['.', 'n', 'e', 't'])

/-- An order for a long host alone may be sent, but no request can be made for it. -/
theorem longHost_refused :
    (Payload.newOrder (Order.forNames [longHost]).identifiers).error? = none
      ∧ KeyPair.ofDer .ecdsaP256 (EcKey.unit.encode .plain true) = .ok (.ec .unit)
      ∧ forIdentifiers (Order.forNames [longHost]).identifiers (.ec .unit) = .error .subjectLength :=
  ⟨by decide +kernel, EcKey.read_unit, by decide +kernel⟩

end SigningRequest

end Acme
