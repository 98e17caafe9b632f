import Acme.Json.Record
import Acme.Proofs.Json.Reading

/-!
# Values and records of written texts

A written form stands for the value that was written (`value?_node`), so a text is read as its value
(`read?_text`). A record finds in a written object what the object has under a name
(`exists_record?_node`).
-/

namespace Acme.Json

namespace Node

/-! ### Values -/

theorem insert_of_not_mem {members : List (String × Json)} {name : String}
    (h : name ∉ members.map (·.1)) (value : Json) :
    insert members name value = members ++ [(name, value)] := by
  have hany : members.any (·.1 == name) = false := by
    rw [List.any_eq_false]
    intro m hm heq
    exact h (List.mem_map.mpr ⟨m, hm, by simpa using heq⟩)
  rw [insert, hany]
  rfl

mutual

/-- A written form stands for the value that was written. -/
theorem value?_node (j : Json) (room : Nat) (h : Fits room j) : value? room j.node = some j := by
  match j with
  | .null => rfl
  | .bool _ => rfl
  | .number _ => simp [Fits] at h
  | .string s => simp [node, value?]
  | .array items =>
    rw [Fits] at h
    rw [node, value?, if_neg (by omega), items?_itemNodes items (room - 1) h.2]
    rfl
  | .object members =>
    rw [Fits] at h
    rw [node, value?, if_neg (by omega),
      members?_memberNodes members (room - 1) h.2.2 [] (by simpa using h.2.1)]
    rfl

theorem items?_itemNodes (items : List Json) (room : Nat) (h : ItemsFit room items) :
    items? room (itemNodes items) = some items := by
  match items with
  | [] => rfl
  | item :: rest =>
    rw [ItemsFit] at h
    rw [itemNodes, items?, value?_node item room h.1, items?_itemNodes rest room h.2]
    rfl

theorem members?_memberNodes (members : List (String × Json)) (room : Nat)
    (h : MembersFit room members) (done : List (String × Json))
    (hnodup : ((done ++ members).map (·.1)).Nodup) :
    members? room done (memberNodes members) = some (done ++ members) := by
  match members with
  | [] => simp [memberNodes, members?]
  | (name, value) :: rest =>
    rw [MembersFit] at h
    have hname : name ∉ done.map (·.1) := by
      intro hmem
      simp only [List.map_append, List.map_cons, List.nodup_append] at hnodup
      exact hnodup.2.2 name hmem name (by simp) rfl
    rw [memberNodes, members?, writtenText?_written, value?_node value room h.1]
    simp only [Option.bind_eq_bind, Option.bind_some, insert_of_not_mem hname]
    rw [members?_memberNodes rest room h.2 (done ++ [(name, value)]) (by simpa using hnodup)]
    simp

end

/-! ### Records -/

theorem named?_memberNodes (members : List (String × Json)) :
    named? (memberNodes members) = some (members.map fun m => (m.1, m.2.node)) := by
  induction members with
  | nil => rfl
  | cons m rest ih =>
    obtain ⟨name, value⟩ := m
    rw [named?] at ih
    simp [named?, memberNodes, ih]

/-- Of members with different names at most one has a name. -/
theorem countP_le_one {β : Type} {members : List (String × β)} (h : (members.map (·.1)).Nodup)
    (name : String) : members.countP (·.1 == name) ≤ 1 := by
  have hcount : members.countP (·.1 == name) = (members.map (·.1)).count name := by
    rw [List.count, List.countP_map]
    rfl
  rw [hcount]
  exact List.nodup_iff_count.mp h name

/-- The record of an object that does not repeat a name. -/
theorem record?_node (names : List String) {members : List (String × Json)}
    (h : (members.map (·.1)).Nodup) :
    (Json.object members).node.record? names
      = some ⟨(members.map fun m => (m.1, m.2.node)).filter fun m => names.contains m.1, false⟩ := by
  have hnames : ((members.map fun m => (m.1, m.2.node)).map (·.1)).Nodup := by
    rw [List.map_map]
    exact h
  rw [node, record?, named?_memberNodes]
  simp only [Option.bind_eq_bind, Option.bind_some]
  rw [if_pos]
  rw [List.all_eq_true]
  intro name _
  exact decide_eq_true (List.filter_sublist.countP_le.trans (countP_le_one hnames name))

end Node

theorem lookup_member {β : Type} (other name : String) (b : β) (rest : List (String × β)) :
    List.lookup other ((name, b) :: rest) = if other = name then some b else rest.lookup other := by
  rw [List.lookup_cons]
  by_cases h : other = name
  · simp [h]
  · simp [beq_eq_false_iff_ne.mpr h, h]

/-- A record has as many members with a name that it knows as there are. -/
theorem countP_known {names : List String} {name : String} (h : name ∈ names)
    (named : List (String × Node)) :
    (named.filter fun m => names.contains m.1).countP (·.1 == name) = named.countP (·.1 == name) := by
  rw [List.countP_filter]
  refine List.countP_congr fun m _ => ?_
  simp only [Bool.and_eq_true, beq_iff_eq, List.contains_iff_mem, and_iff_left_iff_imp]
  rintro rfl
  exact h

/-- A record finds under a name that it knows what is there. -/
theorem lookup_known {names : List String} {name : String} (h : name ∈ names)
    (named : List (String × Node)) :
    (named.filter fun m => names.contains m.1).lookup name = named.lookup name := by
  induction named with
  | nil => rfl
  | cons m named ih =>
    obtain ⟨other, value⟩ := m
    rw [List.filter_cons, lookup_member]
    by_cases heq : name = other
    · subst heq
      simp [h]
    · rw [if_neg heq]
      split
      · rw [lookup_member, if_neg heq]
        exact ih
      · exact ih

/-- A record finds the member that was written under a name. -/
theorem Record.find?_written {names : List String} {name : String} (h : name ∈ names)
    (members : List (String × Json)) (byPlace : Bool) :
    Record.find? ⟨(members.map fun m => (m.1, m.2.node)).filter fun m => names.contains m.1, byPlace⟩
      name = (members.lookup name).map node := by
  rw [Record.find?, lookup_known h]
  induction members with
  | nil => rfl
  | cons m rest ih =>
    obtain ⟨other, value⟩ := m
    rw [List.map_cons, lookup_member, lookup_member, ih]
    split <;> rfl

/-- A written object read as a record: every known name has the value that was written under it. -/
theorem Node.exists_record?_node (names : List String) (members : List (String × Json))
    (h : (members.map (·.1)).Nodup) :
    ∃ r, (Json.object members).node.record? names = some r ∧ r.byPlace = false
      ∧ ∀ name ∈ names, r.find? name = (members.lookup name).map node :=
  ⟨_, Node.record?_node names h, rfl, fun _ hname => Record.find?_written hname members false⟩

theorem Node.nullable_of_ne_null {α : Type} {read : Node → Option α} {n : Node} (h : n ≠ .null) :
    nullable read n = (read n).map some := by
  cases n with
  | null => exact absurd rfl h
  | _ => rfl

/-- A member that was written if it has a value is read as the value that it has. -/
theorem Record.optional_written {α : Type} {r : Record} {name : String} {read : Node → Option α}
    {write : α → Json} {value : Option α} (hfind : r.find? name = (value.map write).map node)
    (hread : ∀ a ∈ value, read (write a).node = some a ∧ (write a).node ≠ .null) :
    r.optional name read = some value := by
  rw [optional, withDefault, hfind]
  cases value with
  | none => rfl
  | some a =>
    obtain ⟨hsome, hnull⟩ := hread a rfl
    simp only [Option.map_some]
    rw [Node.nullable_of_ne_null hnull, hsome, Option.map_some]

/-- So is one that only an object may leave out. -/
theorem Record.nullable_written {α : Type} {r : Record} {name : String} {read : Node → Option α}
    {write : α → Json} {value : Option α} (hplace : r.byPlace = false)
    (hfind : r.find? name = (value.map write).map node)
    (hread : ∀ a ∈ value, read (write a).node = some a ∧ (write a).node ≠ .null) :
    r.nullable name read = some value := by
  rw [← optional_written hfind hread, nullable, optional, withDefault, hplace]
  rfl

/-- The text of a value is read as the value. -/
theorem read?_text (j : Json) (h : Fits Node.nestingLimit j) :
    read? (Bytes.ofText j.text) = some j := by
  rw [read?, Node.read_text j h.plain]
  exact Node.value?_node j _ h

end Acme.Json
