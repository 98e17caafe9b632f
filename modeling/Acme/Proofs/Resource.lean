import Acme.Authorization
import Acme.Order
import Acme.Proofs.Json.Members
import Acme.Proofs.Json.Stability
import Acme.Proofs.Timestamp

/-!
# What a text says about a resource

What a text leaves out of a resource has its default (`Order.Defaulted` and its like), a state that it
gives as a string is the resource's state (`Resource.Lawful`), and its URL is none of its business.

A problem document, an identifier, a challenge, an order or an authorization that has been read from any
text is read again from the text that it is written as. A resource is read again at the URL that it was
read at (`Resource.ofBody?_text`), also where that URL is written with it or is left out.
-/

namespace Acme

open Json

/-! ### States and members that are left out -/

namespace Json.Record

variable {α : Type} {r : Record} {name : String} {read : Node → Option α}

theorem withDefault_of_none {value a : α} (h : r.find? name = none)
    (hread : r.withDefault name read value = some a) : a = value := by
  rw [withDefault, h] at hread
  exact (Option.some.inj hread).symm

theorem optional_of_none {value : Option α} (h : r.find? name = none)
    (hread : r.optional name read = some value) : value = none :=
  withDefault_of_none h hread

end Json.Record

theorem OrderStatus.text_of_ofText? {word : String} {s : OrderStatus} (h : ofText? word = some s) :
    s.text = word := by
  simpa using List.find?_some h

theorem AuthorizationStatus.text_of_ofText? {word : String} {s : AuthorizationStatus}
    (h : ofText? word = some s) : s.text = word := by
  simpa using List.find?_some h

theorem ChallengeStatus.text_of_ofText? {word : String} {s : ChallengeStatus}
    (h : ofText? word = some s) : s.text = word := by
  simpa using List.find?_some h

namespace Resource

/-- A resource that has its URL from elsewhere, and of whose state a text that gives it as a string says
the same as if nothing else were asked for. -/
structure Lawful (R : Type) [Resource R] : Prop where
  id_withId (r : R) (url : String) : id (withId r url) = url
  status_withId (r : R) (url : String) : status (withId r url) = status r
  status_alone {n : Node} {r : R} (h : ofNode? n = some r) (hgives : n.GivesText "status") :
    ∃ alone, n.record? ["status"] = some alone ∧ alone.required "status" Node.text? = some (status r)

theorem status_alone {α : Type} {ofText? : String → Option α} {text : α → String}
    (htext : ∀ {word a}, ofText? word = some a → text a = word) {n : Node} {names : List String}
    {r : Record} (hr : n.record? names = some r) (hname : "status" ∈ names) {value a : α}
    (hread : r.withDefault "status" (Node.nameAs? ofText?) value = some a) (h : n.GivesText "status") :
    ∃ alone, n.record? ["status"] = some alone
      ∧ alone.required "status" Node.text? = some (text a) := by
  obtain ⟨members, m, written, rfl, hmem, hm⟩ := h
  obtain ⟨hfind, alone, halone, hfind'⟩ := Node.find?_of_mem hr hname hmem hm
  refine ⟨alone, halone, ?_⟩
  rw [Record.withDefault, hfind] at hread
  obtain ⟨word, hword, ha⟩ := Option.bind_eq_some_iff.mp hread
  rw [Record.required, hfind', htext ha]
  exact hword

end Resource

namespace Order

def memberNames : List String :=
  ["status", "expires", "identifiers", "authorizations", "finalize", "certificate", "error"]

/-- What a text leaves out of an order has its default. -/
structure Defaulted (o : Order) (n : Node) : Prop where
  status : n.Lacks memberNames "status" → o.status = .pending
  expires : n.Lacks memberNames "expires" → o.expires = none
  authorizations : n.Lacks memberNames "authorizations" → o.authorizations = []
  finalize : n.Lacks memberNames "finalize" → o.finalize = ""
  certificate : n.Lacks memberNames "certificate" → o.certificate = none
  error : n.Lacks memberNames "error" → o.error = none

theorem defaulted {n : Node} {o : Order} (h : ofNode? n = some o) (url : String) :
    Defaulted { o with id := url } n := by
  simp only [ofNode?, Option.bind_eq_bind, Option.bind_eq_some_iff] at h
  obtain ⟨r, hr, status, hstatus, expires, hexpires, _, -, authorizations, hauthorizations, finalize,
    hfinalize, certificate, hcertificate, error, herror, ho⟩ := h
  cases ho
  exact {
    status := fun h => Record.withDefault_of_none (Node.find?_of_lacks h hr) hstatus
    expires := fun h => Record.optional_of_none (Node.find?_of_lacks h hr) hexpires
    authorizations := fun h => Record.withDefault_of_none (Node.find?_of_lacks h hr) hauthorizations
    finalize := fun h => Record.withDefault_of_none (Node.find?_of_lacks h hr) hfinalize
    certificate := fun h => Record.optional_of_none (Node.find?_of_lacks h hr) hcertificate
    error := fun h => Record.optional_of_none (Node.find?_of_lacks h hr) herror }

theorem lawful : Resource.Lawful Order where
  id_withId _ _ := rfl
  status_withId _ _ := rfl
  status_alone {n o} h hgives := by
    simp only [Resource.ofNode?, ofNode?, Option.bind_eq_bind, Option.bind_eq_some_iff] at h
    obtain ⟨r, hr, status, hstatus, _, -, _, -, _, -, _, -, _, -, _, -, ho⟩ := h
    cases ho
    exact Resource.status_alone OrderStatus.text_of_ofText? hr (by simp) hstatus hgives

end Order

namespace Authorization

def memberNames : List String := ["status", "identifier", "challenges", "expires", "wildcard"]

/-- What a text leaves out of an authorization has its default. -/
structure Defaulted (a : Authorization) (n : Node) : Prop where
  status : n.Lacks memberNames "status" → a.status = .pending
  challenges : n.Lacks memberNames "challenges" → a.challenges = []
  expires : n.Lacks memberNames "expires" → a.expires = none
  wildcard : n.Lacks memberNames "wildcard" → a.wildcard = false

theorem defaulted {n : Node} {a : Authorization} (h : ofNode? n = some a) (url : String) :
    Defaulted { a with id := url } n := by
  simp only [ofNode?, Option.bind_eq_bind, Option.bind_eq_some_iff] at h
  obtain ⟨r, hr, status, hstatus, _, -, challenges, hchallenges, expires, hexpires, wildcard,
    hwildcard, ha⟩ := h
  cases ha
  exact {
    status := fun h => Record.withDefault_of_none (Node.find?_of_lacks h hr) hstatus
    challenges := fun h => Record.withDefault_of_none (Node.find?_of_lacks h hr) hchallenges
    expires := fun h => Record.optional_of_none (Node.find?_of_lacks h hr) hexpires
    wildcard := fun h => Record.withDefault_of_none (Node.find?_of_lacks h hr) hwildcard }

theorem lawful : Resource.Lawful Authorization where
  id_withId _ _ := rfl
  status_withId _ _ := rfl
  status_alone {n a} h hgives := by
    simp only [Resource.ofNode?, ofNode?, Option.bind_eq_bind, Option.bind_eq_some_iff] at h
    obtain ⟨r, hr, status, hstatus, _, -, _, -, _, -, _, -, ha⟩ := h
    cases ha
    exact Resource.status_alone AuthorizationStatus.text_of_ofText? hr (by simp) hstatus hgives

end Authorization

namespace Challenge

def memberNames : List String := ["type", "url", "token", "status", "validated", "error"]

/-- What a text leaves out of a challenge has its default. -/
structure Defaulted (c : Challenge) (n : Node) : Prop where
  token : n.Lacks memberNames "token" → c.token = ""
  status : n.Lacks memberNames "status" → c.status = .pending
  validated : n.Lacks memberNames "validated" → c.validated = none
  error : n.Lacks memberNames "error" → c.error = none

theorem defaulted {n : Node} {c : Challenge} (h : ofNode? n = some c) (url : String) :
    Defaulted { c with url } n := by
  simp only [ofNode?, Option.bind_eq_bind, Option.bind_eq_some_iff] at h
  obtain ⟨r, hr, _, -, _, -, token, htoken, status, hstatus, validated, hvalidated, error, herror,
    hc⟩ := h
  cases hc
  exact {
    token := fun h => Record.withDefault_of_none (Node.find?_of_lacks h hr) htoken
    status := fun h => Record.withDefault_of_none (Node.find?_of_lacks h hr) hstatus
    validated := fun h => Record.optional_of_none (Node.find?_of_lacks h hr) hvalidated
    error := fun h => Record.optional_of_none (Node.find?_of_lacks h hr) herror }

theorem lawful : Resource.Lawful Challenge where
  id_withId _ _ := rfl
  status_withId _ _ := rfl
  status_alone {n c} h hgives := by
    simp only [Resource.ofNode?, ofNode?, Option.bind_eq_bind, Option.bind_eq_some_iff] at h
    obtain ⟨r, hr, _, -, _, -, _, -, status, hstatus, _, -, _, -, hc⟩ := h
    cases hc
    exact Resource.status_alone ChallengeStatus.text_of_ofText? hr (by simp) hstatus hgives

end Challenge

/-! ### Points in time -/

theorem settles_timestamp :
    Settles (Node.textAs? Timestamp.ofText?) (.string <| Timestamp.text ·) := by
  intro n t hread
  obtain ⟨s, -, ht⟩ := Option.bind_eq_some_iff.mp hread
  exact stable_textAs (Timestamp.ofText?_text (Timestamp.valid_of_ofText? ht))

/-! ### Problems and identifiers -/

namespace Problem

theorem stable {p : Problem} (hstatus : ∀ status ∈ p.status, Stable (Node.nat? 16) nat status) :
    Stable ofNode? toJson p where
  plain := by
    simpa [toJson, Plain, MembersPlain] using fun k hk => (hstatus k hk).plain
  read_node := by
    have hnodup : (p.toJson.members.map (·.1)).Nodup := by
      rcases p with ⟨_, _, _ | _⟩ <;> simp [toJson, members, member?]
    obtain ⟨r, hr, -, hfind⟩ := Node.exists_record?_node ["type", "detail", "status"] _ hnodup
    rw [show object p.toJson.members = p.toJson from rfl] at hr
    simp only [toJson, members, List.cons_append, List.nil_append, lookup_member,
      lookup_member?] at hfind
    rw [ofNode?, hr, Option.bind_eq_bind, Option.bind_some,
      (stable_text p.type).withDefault (hfind "type" (by simp)),
      (stable_text p.detail).withDefault (hfind "detail" (by simp)),
      Stable.optional hstatus (hfind "status" (by simp))]
    rfl
  ne_null := nofun

theorem settles : Settles ofNode? toJson := by
  intro n p hread
  simp only [ofNode?, Option.bind_eq_bind, Option.bind_eq_some_iff] at hread
  obtain ⟨_, -, type, -, detail, -, status, hstatus, hp⟩ := hread
  cases hp
  exact stable ((settles_nat (by decide)).optional hstatus)

end Problem

namespace Identifier

theorem stable (i : Identifier) : Stable ofNode? toJson i where
  plain := by simp [toJson, Plain, MembersPlain]
  read_node := by
    obtain ⟨r, hr, -, hfind⟩ := Node.exists_record?_node ["type", "value"] i.toJson.members
      (by simp [toJson, members])
    rw [show object i.toJson.members = i.toJson from rfl] at hr
    simp only [toJson, members, lookup_member] at hfind
    rw [ofNode?, hr, Option.bind_eq_bind, Option.bind_some,
      (stable_text i.type).required (hfind "type" (by simp)),
      (stable_text i.value).required (hfind "value" (by simp))]
    rfl
  ne_null := nofun

end Identifier

/-! ### Challenges -/

@[simp] theorem ChallengeType.text_ofText (name : String) : (ofText name).text = name := by
  unfold ofText
  repeat' split
  all_goals simp [text, *]

theorem ChallengeStatus.ofText?_text (s : ChallengeStatus) : ofText? s.text = some s := by
  cases s <;> decide

namespace Challenge

/-- A challenge whose type is what its name stands for, whatever its URL is. -/
theorem stable {c : Challenge} (htype : .ofText c.type.text = c.type)
    (hvalidated : ∀ t ∈ c.validated,
      Stable (Node.textAs? Timestamp.ofText?) (.string <| Timestamp.text ·) t)
    (herror : ∀ p ∈ c.error, Stable Problem.ofNode? Problem.toJson p) :
    Stable ofNode? toJson c where
  plain := by
    simpa [toJson, Plain, MembersPlain] using fun p hp => (herror p hp).plain
  read_node := by
    have hnodup : (c.toJson.members.map (·.1)).Nodup := by
      rcases c with ⟨_, _, _, _, _ | _, _ | _⟩ <;> simp [toJson, members, member?]
    obtain ⟨r, hr, -, hfind⟩ := Node.exists_record?_node
      ["type", "url", "token", "status", "validated", "error"] _ hnodup
    rw [show object c.toJson.members = c.toJson from rfl] at hr
    simp only [toJson, members, List.cons_append, List.nil_append, List.lookup_append, lookup_member,
      lookup_member?] at hfind
    rw [ofNode?, hr, Option.bind_eq_bind, Option.bind_some,
      (stable_text c.type.text).required (hfind "type" (by simp)),
      (stable_text c.url).withDefault (hfind "url" (by simp)),
      (stable_text c.token).withDefault (hfind "token" (by simp)),
      (stable_nameAs c.status.ofText?_text).withDefault (hfind "status" (by simp)),
      Stable.optional hvalidated ((hfind "validated" (by simp)).trans (by simp)),
      Stable.optional herror ((hfind "error" (by simp)).trans (by simp))]
    simp [htype]
  ne_null := nofun

/-- A challenge that has been read is stable under every URL. -/
theorem stable_withUrl {n : Node} {c : Challenge} (hread : ofNode? n = some c) (url : String) :
    Stable ofNode? toJson { c with url } := by
  simp only [ofNode?, Option.bind_eq_bind, Option.bind_eq_some_iff] at hread
  obtain ⟨_, -, name, -, _, -, _, -, _, -, validated, hvalidated, error, herror, hc⟩ := hread
  cases hc
  have htype : ChallengeType.ofText (ChallengeType.ofText name).text = .ofText name := by
    rw [ChallengeType.text_ofText]
  exact stable htype (settles_timestamp.optional hvalidated) (Problem.settles.optional herror)

theorem settles : Settles ofNode? toJson := fun _ c hread => stable_withUrl hread c.url

end Challenge

/-! ### Orders -/

theorem OrderStatus.ofText?_text (s : OrderStatus) : ofText? s.text = some s := by
  cases s <;> decide

namespace Order

theorem stable {o : Order} (hid : o.id = "")
    (hexpires : ∀ t ∈ o.expires,
      Stable (Node.textAs? Timestamp.ofText?) (.string <| Timestamp.text ·) t)
    (herror : ∀ p ∈ o.error, Stable Problem.ofNode? Problem.toJson p) :
    Stable ofNode? toJson o := by
  have hidentifiers := stable_list fun i (_ : i ∈ o.identifiers) => i.stable
  have hurls := stable_strings o.authorizations
  have hcertificate : ∀ url ∈ o.certificate, Stable Node.text? .string url :=
    fun url _ => stable_text url
  refine { plain := ?_, read_node := ?_, ne_null := nofun }
  · have hmembers :=
      And.intro hidentifiers.plain (And.intro hurls.plain fun p hp => (herror p hp).plain)
    simpa [toJson, Plain, MembersPlain] using hmembers
  · have hnodup : (o.toJson.members.map (·.1)).Nodup := by
      rcases o with ⟨_, _, _ | _, _, _, _, _ | _, _ | _⟩ <;> simp [toJson, members, member?]
    obtain ⟨r, hr, -, hfind⟩ := Node.exists_record?_node ["status", "expires", "identifiers",
      "authorizations", "finalize", "certificate", "error"] _ hnodup
    rw [show object o.toJson.members = o.toJson from rfl] at hr
    simp only [toJson, members, List.cons_append, List.nil_append, List.lookup_append, lookup_member,
      lookup_member?] at hfind
    rw [ofNode?, hr, Option.bind_eq_bind, Option.bind_some,
      (stable_nameAs o.status.ofText?_text).withDefault (hfind "status" (by simp)),
      Stable.optional hexpires ((hfind "expires" (by simp)).trans (by simp)),
      hidentifiers.required ((hfind "identifiers" (by simp)).trans (by simp)),
      hurls.withDefault ((hfind "authorizations" (by simp)).trans (by simp)),
      (stable_text o.finalize).withDefault ((hfind "finalize" (by simp)).trans (by simp)),
      Stable.optional hcertificate ((hfind "certificate" (by simp)).trans (by simp)),
      Stable.optional herror ((hfind "error" (by simp)).trans (by simp))]
    simp [← hid]

/-- What is read has no URL yet, and is stable. -/
theorem settles : Settles ofNode? toJson := by
  intro n o hread
  simp only [ofNode?, Option.bind_eq_bind, Option.bind_eq_some_iff] at hread
  obtain ⟨_, -, _, -, expires, hexpires, _, -, _, -, _, -, _, -, error, herror, ho⟩ := hread
  cases ho
  exact stable rfl (settles_timestamp.optional hexpires) (Problem.settles.optional herror)

end Order

/-! ### Authorizations -/

theorem AuthorizationStatus.ofText?_text (s : AuthorizationStatus) : ofText? s.text = some s := by
  cases s <;> decide

namespace Authorization

theorem stable {a : Authorization} (hid : a.id = "")
    (hchallenges : Stable (Node.list? Challenge.ofNode?) (fun cs => .array (cs.map Challenge.toJson))
      a.challenges)
    (hexpires : ∀ t ∈ a.expires,
      Stable (Node.textAs? Timestamp.ofText?) (.string <| Timestamp.text ·) t) :
    Stable ofNode? toJson a := by
  refine { plain := ?_, read_node := ?_, ne_null := nofun }
  · have hmembers := And.intro a.identifier.stable.plain hchallenges.plain
    simpa [toJson, Plain, MembersPlain] using hmembers
  · have hnodup : (a.toJson.members.map (·.1)).Nodup := by
      rcases a with ⟨_, _, _, _, _ | _, _⟩ <;> simp [toJson, members, member?]
    obtain ⟨r, hr, -, hfind⟩ := Node.exists_record?_node
      ["status", "identifier", "challenges", "expires", "wildcard"] _ hnodup
    rw [show object a.toJson.members = a.toJson from rfl] at hr
    simp only [toJson, members, List.cons_append, List.nil_append, List.lookup_append, lookup_member,
      lookup_member?] at hfind
    rw [ofNode?, hr, Option.bind_eq_bind, Option.bind_some,
      (stable_nameAs a.status.ofText?_text).withDefault (hfind "status" (by simp)),
      a.identifier.stable.required (hfind "identifier" (by simp)),
      hchallenges.withDefault (hfind "challenges" (by simp)),
      Stable.optional hexpires ((hfind "expires" (by simp)).trans (by simp)),
      (stable_bool a.wildcard).withDefault ((hfind "wildcard" (by simp)).trans (by simp))]
    simp [← hid]

/-- What is read has no URL yet, and is stable. -/
theorem settles : Settles ofNode? toJson := by
  intro n a hread
  simp only [ofNode?, Option.bind_eq_bind, Option.bind_eq_some_iff] at hread
  obtain ⟨_, -, _, -, _, -, challenges, hchallenges, expires, hexpires, _, -, ha⟩ := hread
  cases ha
  exact stable rfl (Challenge.settles.list.withDefault (stable_list (by simp)) hchallenges)
    (settles_timestamp.optional hexpires)

end Authorization

/-! ### Resources -/

namespace Resource

variable {R : Type} [Resource R] {id : String} {body : Bytes} {r : R}

theorem ofBody?_eq_some_iff :
    ofBody? id body = some r
      ↔ ∃ n q, Node.read body = some n ∧ ofNode? n = some q ∧ r = withId q id := by
  simp only [ofBody?, Option.bind_eq_bind, Option.bind_eq_some_iff]
  constructor
  · rintro ⟨n, hn, q, hq, h⟩
    cases h
    exact ⟨n, q, hn, hq, rfl⟩
  · rintro ⟨n, q, hn, hq, rfl⟩
    exact ⟨n, hn, q, hq, rfl⟩

/-- What is read from the text of a value that a stable description is written as. -/
theorem ofBody?_of_stable {q : R} (h : Stable ofNode? toJson q) (htext : toJson r = toJson q)
    (hid : withId q id = r) : ofBody? id (Bytes.ofText (toJson r).text) = some r := by
  rw [ofBody?_eq_some_iff, htext]
  exact ⟨(toJson q).node, q, Node.read_text _ h.plain, h.read_node, hid.symm⟩

/-- A resource that was read from a body is read again, at the same URL, from the text that it is written
as. -/
theorem ofBody?_text :
    (∀ id body (o : Order), ofBody? id body = some o →
      ofBody? id (Bytes.ofText (toJson o).text) = some o)
    ∧ (∀ id body (a : Authorization), ofBody? id body = some a →
      ofBody? id (Bytes.ofText (toJson a).text) = some a)
    ∧ ∀ id body (c : Challenge), ofBody? id body = some c →
      ofBody? id (Bytes.ofText (toJson c).text) = some c := by
  refine ⟨?order, ?authorization, ?challenge⟩
  case order =>
    intro id body o h
    obtain ⟨n, q, -, hq, rfl⟩ := ofBody?_eq_some_iff.mp h
    exact ofBody?_of_stable (Order.settles n q hq) rfl rfl
  case authorization =>
    intro id body a h
    obtain ⟨n, q, -, hq, rfl⟩ := ofBody?_eq_some_iff.mp h
    exact ofBody?_of_stable (Authorization.settles n q hq) rfl rfl
  case challenge =>
    -- the URL is written, so the description that is read again has it already
    intro id body c h
    obtain ⟨n, q, -, hq, rfl⟩ := ofBody?_eq_some_iff.mp h
    exact ofBody?_of_stable (Challenge.stable_withUrl hq id) rfl rfl

/-- An order given by the places of its members, with its state as an object, a time at another offset
and escapes that are not needed. -/
def placedOrder : Bytes := Bytes.ofText <|
  "[\x7b\"valid\":null\x7d,\"1996-12-19 16:39:57.5-08:00\",[[\"\\u0064ns\",\"a\\/\\u00e9\"]],[],\"\","
    ++ "null,[\"\",\"no\",404]]"

def placed : Order where
  id := "https://ca/order/1"
  status := .valid
  expires := some ⟨⟨1996, 12, 20⟩, 0, 39, 57, 500000000⟩
  identifiers := [⟨"dns", "a/é"⟩]
  authorizations := []
  finalize := ""
  certificate := none
  error := some ⟨"", "no", some 404⟩

/-- An authorization with a challenge of a type that is not known. -/
def strangeAuthorization : Bytes := Bytes.ofText <|
  "\x7b\"challenges\":[\x7b\"type\":\"\\n-01\",\"url\":\"u\",\"error\":\x7b\x7d\x7d],\"more\":1e999,"
    ++ "\"identifier\":\x7b\"value\":\"b\",\"type\":\"ip\"\x7d,\"expires\":null\x7d"

def strange : Authorization where
  id := "https://ca/authz/1"
  status := .pending
  identifier := ⟨"ip", "b"⟩
  challenges := [⟨.other "\n-01", "u", "", .pending, none, some ⟨"", "", none⟩⟩]
  expires := none
  wildcard := false

/-- A challenge that gives another URL than its own. -/
def movedChallenge : Bytes := Bytes.ofText
  "\x7b\"url\":\"https://ca/other\",\"type\":\"dns-01\",\"validated\":\"-0001-12-31T23:59:60Z\"\x7d"

def moved : Challenge where
  type := .dns
  url := "https://ca/chall/1"
  token := ""
  status := .pending
  validated := some ⟨⟨-1, 12, 31⟩, 23, 59, 60, 0⟩
  error := none

theorem spellings_settle :
    (ofBody? "https://ca/order/1" placedOrder = some placed
      ∧ ofBody? "https://ca/order/1" (Bytes.ofText (toJson placed).text) = some placed)
    ∧ (ofBody? "https://ca/authz/1" strangeAuthorization = some strange
      ∧ ofBody? "https://ca/authz/1" (Bytes.ofText (toJson strange).text) = some strange)
    ∧ ofBody? "https://ca/chall/1" movedChallenge = some moved
      ∧ ofBody? "https://ca/chall/1" (Bytes.ofText (toJson moved).text) = some moved := by
  have horder : ofBody? "https://ca/order/1" placedOrder = some placed := by decide +kernel
  have hauthorization : ofBody? "https://ca/authz/1" strangeAuthorization = some strange := by
    decide +kernel
  have hchallenge : ofBody? "https://ca/chall/1" movedChallenge = some moved := by decide +kernel
  obtain ⟨hplaced, hstrange, hmoved⟩ := ofBody?_text
  exact ⟨⟨horder, hplaced _ _ _ horder⟩, ⟨hauthorization, hstrange _ _ _ hauthorization⟩, hchallenge,
    hmoved _ _ _ hchallenge⟩

end Resource

end Acme
