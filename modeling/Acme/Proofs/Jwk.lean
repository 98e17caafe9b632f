import Acme.Jwk
import Acme.Proofs.Json.Arrangement
import Acme.Proofs.Json.Compact

/-!
# The two texts of a key

A key is written in two ways: messages contain it with its type in front, and for the thumbprint its
members are sorted. Both texts have the same members (`canonical_perm`), and a reader finds the type
wherever it stands (`ofNode?_of_perm`), so both are read as the key. The text that is hashed for the
thumbprint therefore tells which key it is of (`canonicalText_inj`).
-/

namespace Acme.Jwk

/-- Reads a key from octets. -/
def ofBytes? (b : Bytes) : Option Jwk :=
  (Json.Node.read b).bind (ofNode? Json.Node.nestingLimit)

/-- The members that a key of its type has to have (RFC 7638). -/
def requiredNames : Jwk → List String
  | ec .. => ["crv", "kty", "x", "y"]
  | rsa .. => ["e", "kty", "n"]

variable {k : Jwk} {members : List (String × Json)}

theorem canonical_perm (k : Jwk) : k.canonical.members.Perm k.toJson.members := by
  cases k with
  | ec crv x y => exact .swap ..
  | rsa n e =>
    show [_, _, _].Perm [_, _, _]
    exact (List.Perm.swap ..).trans (.cons _ (.swap ..))

theorem canonical_eq (k : Jwk) : k.canonical = .object k.canonical.members := by
  cases k <;> rfl

theorem toJson_eq (k : Jwk) : k.toJson = .object k.toJson.members := by
  cases k <;> rfl

theorem nodup_toJson (k : Jwk) : (k.toJson.members.map (·.1)).Nodup := by
  cases k <;> simp [toJson, Json.members]

theorem isString_toJson (k : Jwk) : ∀ m ∈ k.toJson.members, ∃ s, m.2 = .string s := by
  cases k <;> simp [toJson, Json.members]

/-! ### Reading -/

/-- Strings fit anywhere. -/
theorem membersFit_of_isString {room : Nat} (h : ∀ m ∈ members, ∃ s, m.2 = .string s) :
    Json.MembersFit room members := by
  induction members with
  | nil => trivial
  | cons m members ih =>
    obtain ⟨⟨s, hs⟩, hrest⟩ := List.forall_mem_cons.mp h
    obtain ⟨name, value⟩ := m
    obtain rfl : value = .string s := hs
    exact ⟨trivial, ih hrest⟩

/-- The members of a key, in any order, can be kept. -/
theorem fits_of_perm (h : members.Perm k.toJson.members) {room : Nat} (hroom : 0 < room) :
    Json.Fits room (.object members) :=
  ⟨hroom, (h.map _).nodup_iff.mpr k.nodup_toJson,
    membersFit_of_isString fun m hm => k.isString_toJson m (h.subset hm)⟩

theorem fits_toJson (k : Jwk) {room : Nat} (h : 0 < room) : Json.Fits room k.toJson := by
  rw [toJson_eq]
  exact fits_of_perm (.refl _) h

/-- The type is found wherever it stands. -/
theorem typeNode?_of_perm (h : members.Perm k.toJson.members) :
    typeNode? (Json.object members).node = some (.string (Json.written k.type)) := by
  have hnode : (Json.object members).node = .object (Json.memberNodes members) := by rw [Json.node]
  have hnamed : (members.map fun m => (m.1, m.2.node)).filter (·.1 == "kty")
      = [("kty", .string (Json.written k.type))] := by
    rw [List.perm_singleton.symm]
    refine ((h.map _).filter _).trans (.of_eq ?_)
    cases k <;> simp [toJson, Json.members, Json.node, type]
  rw [hnode, typeNode?, Json.Node.named?_memberNodes, Option.bind_eq_bind, Option.bind_some, hnamed]

/-- A key is read from its members in any order. -/
theorem ofNode?_of_perm (h : members.Perm k.toJson.members) {room : Nat} (hroom : 0 < room) :
    ofNode? room (Json.object members).node = some k := by
  have hvalue := Json.Node.value?_node _ room (fits_of_perm h hroom)
  have htype := typeNode?_of_perm h
  have hnodup : (members.map (·.1)).Nodup := (h.map _).nodup_iff.mpr k.nodup_toJson
  -- no name occurs twice, so that the order of the members does not matter
  have hlookup (name : String) : members.lookup name = k.toJson.members.lookup name :=
    (Json.Node.lookup_perm h (Json.Node.countP_le_one hnodup name)).symm
  have hrecord (names : List String) : ∃ r, (Json.object members).node.record? names = some r
      ∧ ∀ name ∈ names, r.find? name = (k.toJson.members.lookup name).map Json.node := by
    obtain ⟨r, hr, -, hfind⟩ := Json.Node.exists_record?_node names members hnodup
    exact ⟨r, hr, fun name hname => (hfind name hname).trans (by rw [hlookup])⟩
  generalize (Json.object members).node = n at hvalue htype hrecord
  rw [ofNode?, hvalue]
  cases k with
  | ec crv x y =>
    obtain ⟨r, hr, hfind⟩ := hrecord ["kty", "crv", "x", "y"]
    simp [htype, type, hr, hfind, toJson, Json.members, Json.Record.required, Json.Node.text?, Json.node,
      List.lookup_cons]
  | rsa n e =>
    obtain ⟨r, hr, hfind⟩ := hrecord ["kty", "n", "e"]
    simp [htype, type, hr, hfind, toJson, Json.members, Json.Record.required, Json.Node.text?, Json.node,
      List.lookup_cons]

/-- A key is read as it was written. -/
theorem ofNode?_toJson (k : Jwk) {room : Nat} (h : 0 < room) :
    ofNode? room k.toJson.node = some k := by
  rw [toJson_eq]
  exact ofNode?_of_perm (.refl _) h

/-- A text with the members of a key is read as the key. -/
theorem ofBytes?_text_of_perm (h : members.Perm k.toJson.members) :
    ofBytes? (Bytes.ofText (Json.object members).text) = some k := by
  have hplain := (fits_of_perm h Nat.one_pos).plain
  rw [ofBytes?, Json.Node.read_text _ hplain, Option.bind_some]
  exact ofNode?_of_perm h (by decide)

/-- The canonical text is read as the key. -/
theorem ofBytes?_canonicalText (k : Jwk) : ofBytes? (Bytes.ofText k.canonicalText) = some k := by
  rw [canonicalText, canonical_eq]
  exact ofBytes?_text_of_perm k.canonical_perm

/-- Different keys have different canonical texts. -/
theorem canonicalText_inj {k l : Jwk} : k.canonicalText = l.canonicalText ↔ k = l := by
  refine ⟨fun h => Option.some.inj ?_, congrArg canonicalText⟩
  rw [← ofBytes?_canonicalText k, h, ofBytes?_canonicalText l]

/-- The other text is read as the key too. -/
theorem ofBytes?_text (k : Jwk) : ofBytes? (Bytes.ofText k.toJson.text) = some k := by
  rw [toJson_eq]
  exact ofBytes?_text_of_perm (.refl _)

theorem text_inj {k l : Jwk} : k.toJson.text = l.toJson.text ↔ k = l := by
  refine ⟨fun h => Option.some.inj ?_, congrArg fun k : Jwk => k.toJson.text⟩
  rw [← ofBytes?_text k, h, ofBytes?_text l]

/-! ### Both texts -/

theorem requiredNames_sorted (k : Jwk) : k.requiredNames.Pairwise (· < ·) := by
  cases k with
  | ec crv x y =>
    show ["crv", "kty", "x", "y"].Pairwise (· < ·)
    decide +kernel
  | rsa n e =>
    show ["e", "kty", "n"].Pairwise (· < ·)
    decide +kernel

theorem names_canonical (k : Jwk) : k.canonical.members.map (·.1) = k.requiredNames := by
  cases k <;> rfl

/-- The text that is hashed has white space inside of strings only. It is an object of exactly the required
members, whose names strictly increase and whose values are strings. The other text has the same members. Both
are read as the key, so no other key has either of them. -/
theorem texts_lawful (k : Jwk) :
    Json.Compact (Bytes.ofText k.canonicalText)
    ∧ (∃ sorted members : List (String × Json),
        Json.read? (Bytes.ofText k.canonicalText) = some (.object sorted)
        ∧ Json.read? (Bytes.ofText k.toJson.text) = some (.object members)
        ∧ sorted.map (·.1) = k.requiredNames ∧ (sorted.map (·.1)).Pairwise (· < ·)
        ∧ (∀ m ∈ sorted, ∃ s, m.2 = .string s) ∧ sorted.Perm members)
    ∧ ofBytes? (Bytes.ofText k.canonicalText) = some k
    ∧ ofBytes? (Bytes.ofText k.toJson.text) = some k
    ∧ ∀ l : Jwk, (k.canonicalText = l.canonicalText ↔ k = l)
      ∧ (k.toJson.text = l.toJson.text ↔ k = l) := by
  -- the members are flat, so both texts are within what a reader takes
  have hsorted : Json.Fits Json.Node.nestingLimit k.canonical := by
    rw [canonical_eq]
    exact fits_of_perm k.canonical_perm (by decide)
  have hother : Json.Fits Json.Node.nestingLimit k.toJson := k.fits_toJson (by decide)
  refine ⟨Json.compact_text _ hsorted.plain, ⟨k.canonical.members, k.toJson.members, ?_, ?_,
    k.names_canonical, ?_, fun m hm => k.isString_toJson m (k.canonical_perm.subset hm), k.canonical_perm⟩,
    k.ofBytes?_canonicalText, k.ofBytes?_text, fun l => ⟨canonicalText_inj, text_inj⟩⟩
  · rw [← canonical_eq]
    exact Json.read?_text _ hsorted
  · rw [← toJson_eq]
    exact Json.read?_text _ hother
  · rw [names_canonical]
    exact k.requiredNames_sorted

example : canonicalText (.rsa "a\"b" "c d")
    = "\x7b\"e\":\"c d\",\"kty\":\"RSA\",\"n\":\"a\\\"b\"\x7d" := by
  decide +kernel

end Acme.Jwk
