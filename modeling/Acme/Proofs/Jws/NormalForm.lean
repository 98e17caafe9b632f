import Acme.Proofs.Base64.Canonical
import Acme.Proofs.FirstFailure
import Acme.Proofs.Json.Arrangement
import Acme.Proofs.Json.Parsing
import Acme.Proofs.Jws.RoundTrip

/-!
# Messages in their shortest form

A message may be laid out in many ways: with white space, with its members in any order and among others,
with escapes in its strings, or as an array. All that matters of them are three strings (`GivenBy`). A
text is a message exactly if these are base64, up to padding at the end, and the first of them is a header
(`parse_eq_ok_iff`).

Written again, the three strings stand in a text without white space and without any escape, since no
symbol of base64 needs one (`text_eq`), and that text says the same (`reserialized`).
-/

namespace Acme

namespace Json.Node

/-- The values that an object gives for a name. -/
def valuesOf (members : List (Bytes × Node)) (name : String) : List Node :=
  (members.filter fun m => writtenText? m.1 == some name).map (·.2)

variable {members : List (Bytes × Node)} {named : List (String × Node)} {names : List String}
  {name : String} {v : Node}

theorem exists_named?_iff :
    (∃ named, named? members = some named) ↔ ∀ m ∈ members, writtenText? m.1 ≠ none := by
  induction members with
  | nil => simp [named?]
  | cons m members ih =>
    rw [named?_cons, List.forall_mem_cons, ← ih]
    cases writtenText? m.1 <;> cases named? members <;> simp

theorem lookup_eq_head? (l : List (String × Node)) (name : String) :
    l.lookup name = ((l.filter (·.1 == name)).map (·.2)).head? := by
  induction l with
  | nil => rfl
  | cons m l ih =>
    obtain ⟨other, value⟩ := m
    rw [lookup_member]
    by_cases heq : name = other
    · simp [heq]
    · simp [heq, Ne.symm heq, ih]

theorem filter_named? (h : named? members = some named) (name : String) :
    (named.filter (·.1 == name)).map (·.2) = valuesOf members name := by
  induction members generalizing named with
  | nil =>
    cases h
    rfl
  | cons m members ih =>
    rw [named?_cons] at h
    obtain ⟨other, hother, h⟩ := Option.bind_eq_some_iff.mp h
    obtain ⟨rest, hrest, rfl⟩ := Option.map_eq_some_iff.mp h
    have hvalues := ih hrest
    rw [valuesOf] at hvalues ⊢
    by_cases heq : other = name
    · simp [hother, heq, hvalues]
    · simp [hother, heq, hvalues]

theorem countP_known_eq (h : named? members = some named) (hname : name ∈ names) :
    (named.filter fun m => names.contains m.1).countP (·.1 == name)
      = (valuesOf members name).length := by
  rw [countP_known hname, List.countP_eq_length_filter, ← List.length_map (f := (·.2)),
    filter_named? h]

/-- An object whose names can be read is a record if it gives at most one value for each known name. -/
theorem exists_record?_object (names : List String) (hnames : ∀ m ∈ members, writtenText? m.1 ≠ none)
    (honce : ∀ name ∈ names, (valuesOf members name).length ≤ 1) :
    ∃ r, (Node.object members).record? names = some r := by
  obtain ⟨named, hnamed⟩ := exists_named?_iff.mpr hnames
  have hall : names.all fun name =>
      (named.filter fun m => names.contains m.1).countP (·.1 == name) ≤ 1 := by
    rw [List.all_eq_true]
    intro name hname
    rw [countP_known_eq hnamed hname]
    exact decide_eq_true (honce name hname)
  rw [record?, hnamed, Option.bind_eq_bind, Option.bind_some]
  exact ⟨_, if_pos hall⟩

/-- What is found under a known name is the only value that the object gives for it. -/
theorem find?_eq_some_iff {r : Record} (h : (Node.object members).record? names = some r)
    (hname : name ∈ names) : r.find? name = some v ↔ valuesOf members name = [v] := by
  obtain ⟨named, hnamed, honce, rfl⟩ := record?_object h
  have hcount := honce name hname
  rw [countP_known_eq hnamed hname] at hcount
  rw [Record.find?, lookup_known hname, lookup_eq_head?, filter_named? hnamed]
  cases hvalues : valuesOf members name with
  | nil => simp
  | cons w rest =>
    rw [hvalues] at hcount
    obtain rfl : rest = [] := by simpa using hcount
    simp

end Json.Node

namespace Jws

open Json (Node)

/-- A text gives the three strings of a message: it is an array of them in their order, or an object that
gives a value for each of their names, and no second one, whatever else it gives. -/
inductive GivenBy (j : Jws) : Node → Prop
  | array {header payload signature : Node} (hheader : header.text? = some j.header)
    (hpayload : payload.text? = some j.payload) (hsignature : signature.text? = some j.signature) :
    GivenBy j (.array [header, payload, signature])
  | object {members : List (Bytes × Node)} {header payload signature : Node}
    (hnames : ∀ m ∈ members, Node.writtenText? m.1 ≠ none)
    (honeHeader : Node.valuesOf members "protected" = [header])
    (honePayload : Node.valuesOf members "payload" = [payload])
    (honeSignature : Node.valuesOf members "signature" = [signature])
    (hheader : header.text? = some j.header) (hpayload : payload.text? = some j.payload)
    (hsignature : signature.text? = some j.signature) : GivenBy j (.object members)

/-- The three strings of a record. -/
theorem ofNode?_record {n : Node} {j : Jws} :
    ofNode? n = some j ↔ ∃ r, n.record? ["protected", "payload", "signature"] = some r
      ∧ r.required "protected" Node.text? = some j.header
      ∧ r.required "payload" Node.text? = some j.payload
      ∧ r.required "signature" Node.text? = some j.signature := by
  obtain ⟨header, payload, signature⟩ := j
  simp only [ofNode?, Option.bind_eq_bind, Option.bind_eq_some_iff, Option.pure_def,
    Option.some.injEq, Jws.mk.injEq]
  constructor
  · rintro ⟨r, hr, _, hheader, _, hpayload, _, hsignature, rfl, rfl, rfl⟩
    exact ⟨r, hr, hheader, hpayload, hsignature⟩
  · rintro ⟨r, hr, hheader, hpayload, hsignature⟩
    exact ⟨r, hr, _, hheader, _, hpayload, _, hsignature, rfl, rfl, rfl⟩

theorem ofNode?_eq_some_iff {n : Node} {j : Jws} : ofNode? n = some j ↔ j.GivenBy n := by
  rw [ofNode?_record]
  constructor
  · rintro ⟨r, hr, hheader, hpayload, hsignature⟩
    cases n with
    | object members =>
      -- in an object they are told by their names, each of which stands there once
      obtain ⟨named, hnamed, -, -⟩ := Node.record?_object hr
      obtain ⟨header, hfound, hheader⟩ := Option.bind_eq_some_iff.mp hheader
      obtain ⟨payload, hfound', hpayload⟩ := Option.bind_eq_some_iff.mp hpayload
      obtain ⟨signature, hfound'', hsignature⟩ := Option.bind_eq_some_iff.mp hsignature
      exact .object (Node.exists_named?_iff.mp ⟨named, hnamed⟩)
        ((Node.find?_eq_some_iff hr (by simp)).mp hfound)
        ((Node.find?_eq_some_iff hr (by simp)).mp hfound')
        ((Node.find?_eq_some_iff hr (by simp)).mp hfound'') hheader hpayload hsignature
    | array items =>
      rw [Node.record?] at hr
      split at hr
      · cases hr
        rename_i hlength
        -- in an array the strings are told by their places
        rcases items with _ | ⟨header, _ | ⟨payload, _ | ⟨signature, _ | ⟨extra, rest⟩⟩⟩⟩
        · cases hheader
        · cases hpayload
        · cases hsignature
        · exact .array hheader hpayload hsignature
        · simp only [List.length_cons, List.length_nil] at hlength
          omega
      · cases hr
    | null | bool _ | number _ | string _ => cases hr
  · intro h
    cases h with
    | array hheader hpayload hsignature =>
      exact ⟨_, rfl, hheader, hpayload, hsignature⟩
    | @object members header payload signature hnames honeHeader honePayload honeSignature hheader
        hpayload hsignature =>
      obtain ⟨r, hr⟩ := Node.exists_record?_object ["protected", "payload", "signature"] hnames
        (by simp [honeHeader, honePayload, honeSignature])
      have hfind {name : String} {v : Node} (hname : name ∈ ["protected", "payload", "signature"])
          (hone : Node.valuesOf members name = [v]) : r.required name Node.text? = v.text? := by
        rw [Json.Record.required, (Node.find?_eq_some_iff hr hname).mpr hone]
        rfl
      exact ⟨r, hr, (hfind (by simp) honeHeader).trans hheader,
        (hfind (by simp) honePayload).trans hpayload,
        (hfind (by simp) honeSignature).trans hsignature⟩

/-- The three strings that octets give are those of a text that the octets write. -/
theorem ofBytes?_eq_some_iff {s : Bytes} {j : Jws} :
    ofBytes? s = some j ↔ ∃ n, Node.Writes n s ∧ j.GivenBy n := by
  rw [ofBytes?, Option.bind_eq_some_iff]
  refine exists_congr fun n => ?_
  rw [Node.read_eq_some_iff, ofNode?_eq_some_iff]

theorem decoded_eq_ok_iff {s : String} {b : Bytes} :
    decoded s = .ok b ↔ Base64.unpadded s = Base64.toUrl b := by
  rw [decoded, ← Base64.ofUrl_eq_ok_iff]
  split <;> simp [*]

/-- What a message says: its three strings are base64, and the first of them is a header. -/
structure Says (j : Jws) (m : ParsedJws) : Prop where
  header : ∃ b, Base64.unpadded j.header = Base64.toUrl b ∧ ProtectedHeader.ofBytes? b = some m.header
  payload : Base64.unpadded j.payload = Base64.toUrl m.payload
  signature : Base64.unpadded j.signature = Base64.toUrl m.signature
  signingInput : m.signingInput = j.header ++ "." ++ j.payload

theorem parsed_eq_ok_iff {j : Jws} {m : ParsedJws} : j.parsed = .ok m ↔ j.Says m := by
  constructor
  · intro h
    -- the header is decoded and read, then the other two strings are decoded
    obtain ⟨b, hheader, h⟩ := bind_eq_ok_iff.mp h
    dsimp only at h
    split at h
    · rename_i header hread
      obtain ⟨_, ⟨⟩, h⟩ := bind_eq_ok_iff.mp h
      obtain ⟨payload, hpayload, h⟩ := bind_eq_ok_iff.mp h
      obtain ⟨signature, hsignature, h⟩ := bind_eq_ok_iff.mp h
      cases h
      exact ⟨⟨b, decoded_eq_ok_iff.mp hheader, hread⟩, decoded_eq_ok_iff.mp hpayload,
        decoded_eq_ok_iff.mp hsignature, rfl⟩
    · cases h
  · rintro ⟨⟨b, hheader, hread⟩, hpayload, hsignature, hinput⟩
    cases m
    dsimp only at hread hpayload hsignature hinput
    apply bind_eq_ok_iff.mpr
    refine ⟨b, decoded_eq_ok_iff.mpr hheader, ?_⟩
    rw [hread, hinput]
    apply bind_eq_ok_iff.mpr
    refine ⟨_, rfl, ?_⟩
    apply bind_eq_ok_iff.mpr
    refine ⟨_, decoded_eq_ok_iff.mpr hpayload, ?_⟩
    apply bind_eq_ok_iff.mpr
    exact ⟨_, decoded_eq_ok_iff.mpr hsignature, rfl⟩

/-- Which octets are a message, and what it says. -/
theorem parse_eq_ok_iff {s : Bytes} {m : ParsedJws} :
    parse s = .ok m ↔ ∃ j, ofBytes? s = some j ∧ j.Says m := by
  rw [parse]
  cases ofBytes? s with
  | none => simp
  | some j => simp [parsed_eq_ok_iff]

/-! ### Writing again -/

/-- No symbol of base64 needs an escape. -/
theorem quoted_of_unpadded {s : String} {b : Bytes} (h : Base64.unpadded s = Base64.toUrl b) :
    Json.quoted s = "\"" ++ s ++ "\"" := by
  have hplain : ('=' :: Base64.Alphabet.urlSafe.chars).all fun c => Json.escape c == [c] := by decide
  have hescape : ∀ c ∈ s.toList, Json.escape c = [c] := by
    intro c hc
    have hmem : c ∈ '=' :: Base64.Alphabet.urlSafe.chars := by
      rw [List.mem_cons]
      exact (Base64.mem_chars_of_ofUrl (Base64.ofUrl_eq_ok_iff.mpr h) c hc).symm
    exact eq_of_beq (List.all_eq_true.mp hplain c hmem)
  have hsame : s.toList.flatMap Json.escape = s.toList := by
    rw [List.flatMap_congr hescape, List.flatMap_singleton']
  rw [← String.toList_inj, Json.quoted, hsame]
  simp

/-- The text of a message: its three members in their order, with each string as it stands. -/
theorem text_eq {j : Jws} {m : ParsedJws} (h : j.Says m) :
    j.text = "\x7b\"protected\":\"" ++ j.header ++ "\",\"payload\":\"" ++ j.payload
      ++ "\",\"signature\":\"" ++ j.signature ++ "\"\x7d" := by
  obtain ⟨b, hheader, -⟩ := h.header
  have hname : Json.quoted "protected" = "\"protected\"" ∧ Json.quoted "payload" = "\"payload\""
      ∧ Json.quoted "signature" = "\"signature\"" := by decide +kernel
  rw [text, toJson, Json.text]
  simp only [Json.membersText, Json.text, quoted_of_unpadded hheader, quoted_of_unpadded h.payload,
    quoted_of_unpadded h.signature, hname]
  rw [← String.toList_inj]
  simp

/-- A message is a JSON text that gives three strings, which are base64 up to padding at the end, the
first of them a header. Whatever its layout, the three strings can be written again, as they stand, as an
object with these members in their order and with nothing else; and that text is read as the same header,
payload and signature, with the same text to sign. -/
theorem reserialized {s : Bytes} {m : ParsedJws} (h : parse s = .ok m) :
    ∃ n j, Node.Writes n s ∧ j.GivenBy n ∧ ofBytes? s = some j ∧ j.Says m
      ∧ j.text = "\x7b\"protected\":\"" ++ j.header ++ "\",\"payload\":\"" ++ j.payload
        ++ "\",\"signature\":\"" ++ j.signature ++ "\"\x7d"
      ∧ Json.read? (Bytes.ofText j.text) = some (.object [("protected", .string j.header),
        ("payload", .string j.payload), ("signature", .string j.signature)])
      ∧ parse (Bytes.ofText j.text) = .ok m := by
  obtain ⟨j, hj, hsays⟩ := parse_eq_ok_iff.mp h
  obtain ⟨n, hwrites, hgiven⟩ := ofBytes?_eq_some_iff.mp hj
  have hfits : Json.Fits Node.nestingLimit j.toJson := by
    simp [toJson, Json.Fits, Json.MembersFit, Node.nestingLimit]
  have hagain : parse (Bytes.ofText j.text) = .ok m :=
    parse_eq_ok_iff.mpr ⟨j, ofBytes?_text j, hsays⟩
  exact ⟨n, j, hwrites, hgiven, hj, hsays, text_eq hsays, Json.read?_text j.toJson hfits, hagain⟩

/-- A message with its members in another order and padded, an escape, and a member that is passed over
twice although no value can be made of it. -/
def roundabout : Bytes := Bytes.ofText
  "\x7b \"signature\": \"\\u0041A\", \"x\": [1e400, \"\\ud800\"], \"payload\": \"e30==\", \"x\": null,
    \"protected\": \"eyJhbGciOiIiLCJ1cmwiOiIifQ=\"\x7d "

theorem roundabout_reserialized :
    ∃ m, parse roundabout = .ok m
      ∧ parse (Bytes.ofText ("\x7b\"protected\":\"eyJhbGciOiIiLCJ1cmwiOiIifQ=\","
        ++ "\"payload\":\"e30==\",\"signature\":\"AA\"\x7d")) = .ok m := by
  have hread : parse roundabout = .ok ⟨⟨"", none, "", none, none⟩, Bytes.ofText "\x7b\x7d", [0],
      "eyJhbGciOiIiLCJ1cmwiOiIifQ=.e30=="⟩ := by
    decide +kernel
  obtain ⟨n, j, -, -, hj, -, htext, -, hagain⟩ := reserialized hread
  have hstrings : ofBytes? roundabout = some ⟨"eyJhbGciOiIiLCJ1cmwiOiIifQ=", "e30==", "AA"⟩ := by
    decide +kernel
  obtain rfl := Option.some.inj (hstrings.symm.trans hj)
  rw [htext] at hagain
  exact ⟨_, hread, hagain⟩

end Jws

end Acme
