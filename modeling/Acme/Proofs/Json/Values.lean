import Acme.Proofs.Json.Parsing
import Acme.Proofs.Json.Records

/-!
# Texts whose values are kept

A text has a value if each of its parts has one and not too many arrays and objects stand inside one
another: `Node.Keepable` says so by the shape of the text (`exists_value?_iff`). The value of an object has
under a name what the last member with that name has (`lookup_members?`), although the members are taken
in one by one from the first. Together with the grammar this says what octets are read as
(`read?_eq_some_iff`, `read?_eq_none_iff`).
-/

namespace Acme.Json

namespace Node

/-! ### Values -/

/-- A text in which at most so many arrays and objects stand inside one another, every number has a value,
and every string and every name is well-formed text. -/
inductive Keepable : Nat → Node → Prop
  | null {room : Nat} : Keepable room .null
  | bool {room : Nat} {b : Bool} : Keepable room (.bool b)
  | number {room : Nat} {written : Bytes} {n : Number} (h : number? (.number written) = some n) :
    Keepable room (.number written)
  | string {room : Nat} {written : Bytes} {s : String} (h : writtenText? written = some s) :
    Keepable room (.string written)
  | array {room : Nat} {items : List Node} (h : ∀ i ∈ items, Keepable room i) :
    Keepable (room + 1) (.array items)
  | object {room : Nat} {members : List (Bytes × Node)}
    (hnames : ∀ m ∈ members, ∃ s, writtenText? m.1 = some s) (h : ∀ m ∈ members, Keepable room m.2) :
    Keepable (room + 1) (.object members)

mutual

theorem keepable_of_value? (n : Node) {room : Nat} {j : Json} (h : value? room n = some j) :
    Keepable room n := by
  match n with
  | .null => exact .null
  | .bool b => exact .bool
  | .number written =>
    obtain ⟨k, hk, -⟩ := Option.map_eq_some_iff.mp h
    exact .number hk
  | .string written =>
    obtain ⟨s, hs, -⟩ := Option.map_eq_some_iff.mp h
    exact .string hs
  | .array items =>
    rw [value?] at h
    split at h
    · cases h
    · rename_i hroom
      obtain ⟨js, hjs, -⟩ := Option.map_eq_some_iff.mp h
      -- with room left for the array, its items have one less
      obtain ⟨room, rfl⟩ := Nat.exists_eq_succ_of_ne_zero hroom
      exact .array (keepable_of_items? items hjs)
  | .object members =>
    rw [value?] at h
    split at h
    · cases h
    · rename_i hroom
      obtain ⟨values, hvalues, -⟩ := Option.map_eq_some_iff.mp h
      obtain ⟨room, rfl⟩ := Nat.exists_eq_succ_of_ne_zero hroom
      obtain ⟨hnames, hmembers⟩ := keepable_of_members? members hvalues
      exact .object hnames hmembers

theorem keepable_of_items? (items : List Node) {room : Nat} {js : List Json}
    (h : items? room items = some js) : ∀ i ∈ items, Keepable room i := by
  match items with
  | [] => exact List.forall_mem_nil _
  | item :: rest =>
    rw [items?] at h
    obtain ⟨j, hj, h⟩ := Option.bind_eq_some_iff.mp h
    obtain ⟨js, hjs, -⟩ := Option.bind_eq_some_iff.mp h
    exact List.forall_mem_cons.mpr ⟨keepable_of_value? item hj, keepable_of_items? rest hjs⟩

theorem keepable_of_members? (members : List (Bytes × Node)) {room : Nat}
    {done values : List (String × Json)} (h : members? room done members = some values) :
    (∀ m ∈ members, ∃ s, writtenText? m.1 = some s) ∧ ∀ m ∈ members, Keepable room m.2 := by
  match members with
  | [] => exact ⟨List.forall_mem_nil _, List.forall_mem_nil _⟩
  | (name, item) :: rest =>
    rw [members?] at h
    obtain ⟨s, hs, h⟩ := Option.bind_eq_some_iff.mp h
    obtain ⟨j, hj, h⟩ := Option.bind_eq_some_iff.mp h
    obtain ⟨hnames, hrest⟩ := keepable_of_members? rest h
    exact ⟨List.forall_mem_cons.mpr ⟨⟨s, hs⟩, hnames⟩,
      List.forall_mem_cons.mpr ⟨keepable_of_value? item hj, hrest⟩⟩

end

theorem exists_items? {room : Nat} {items : List Node} (h : ∀ i ∈ items, ∃ j, value? room i = some j) :
    ∃ js, items? room items = some js := by
  induction items with
  | nil => exact ⟨[], rfl⟩
  | cons item rest ih =>
    obtain ⟨⟨j, hj⟩, hrest⟩ := List.forall_mem_cons.mp h
    obtain ⟨js, hjs⟩ := ih hrest
    exact ⟨j :: js, by rw [items?, hj, hjs]; rfl⟩

theorem exists_members? {room : Nat} {members : List (Bytes × Node)} (done : List (String × Json))
    (hnames : ∀ m ∈ members, ∃ s, writtenText? m.1 = some s)
    (h : ∀ m ∈ members, ∃ j, value? room m.2 = some j) :
    ∃ values, members? room done members = some values := by
  induction members generalizing done with
  | nil => exact ⟨done, rfl⟩
  | cons m rest ih =>
    obtain ⟨⟨s, hs⟩, hnames⟩ := List.forall_mem_cons.mp hnames
    obtain ⟨⟨j, hj⟩, hrest⟩ := List.forall_mem_cons.mp h
    obtain ⟨values, hvalues⟩ := ih (insert done s j) hnames hrest
    refine ⟨values, ?_⟩
    rw [members?, hs, Option.bind_eq_bind, Option.bind_some, hj]
    exact hvalues

theorem Keepable.exists_value? {room : Nat} {n : Node} (h : Keepable room n) :
    ∃ j, value? room n = some j := by
  induction h with
  | null => exact ⟨_, rfl⟩
  | bool => exact ⟨_, rfl⟩
  | number h => exact ⟨_, by rw [value?, h]; rfl⟩
  | string h => exact ⟨_, by rw [value?, h]; rfl⟩
  | array _ ih =>
    obtain ⟨js, hjs⟩ := exists_items? ih
    exact ⟨.array js, by rw [value?, if_neg (Nat.succ_ne_zero _), Nat.add_sub_cancel, hjs]; rfl⟩
  | object hnames _ ih =>
    obtain ⟨values, hvalues⟩ := exists_members? [] hnames ih
    exact ⟨.object values, by rw [value?, if_neg (Nat.succ_ne_zero _), Nat.add_sub_cancel, hvalues]; rfl⟩

theorem exists_value?_iff {room : Nat} {n : Node} : (∃ j, value? room n = some j) ↔ Keepable room n :=
  ⟨fun ⟨_, h⟩ => keepable_of_value? n h, Keepable.exists_value?⟩

/-! ### Members -/

/-- What an object has under a name: its last member with that name. -/
def lastMember? (members : List (Bytes × Node)) (name : String) : Option Node :=
  (members.reverse.find? fun m => writtenText? m.1 == some name).map (·.2)

theorem lastMember?_cons (w : Bytes) (item : Node) (rest : List (Bytes × Node)) (name : String) :
    lastMember? ((w, item) :: rest) name
      = (lastMember? rest name).or (if writtenText? w = some name then some item else none) := by
  rw [lastMember?, List.reverse_cons, List.find?_append, lastMember?]
  cases rest.reverse.find? fun m => writtenText? m.1 == some name with
  | some m => rfl
  | none =>
    by_cases h : writtenText? w = some name <;> simp [h]

theorem lookup_insert_self (done : List (String × Json)) (name : String) (value : Json) :
    (insert done name value).lookup name = some value := by
  rw [insert]
  split
  · rename_i hany
    induction done with
    | nil => cases hany
    | cons m done ih =>
      obtain ⟨held, old⟩ := m
      by_cases h : held = name
      · simp [h]
      · rw [List.map_cons, if_neg (by simpa using h), lookup_member, if_neg (Ne.symm h)]
        exact ih (by simpa [h] using hany)
  · rename_i hany
    -- the name is new, so the value is added at the end and found there
    have hfresh : done.lookup name = none := by
      rw [List.lookup_eq_none_iff]
      intro m hm
      simp only [List.any_eq_true, not_exists, not_and, beq_iff_eq] at hany
      exact bne_iff_ne.mpr (Ne.symm (hany m hm))
    rw [List.lookup_append, hfresh, Option.none_or, lookup_member, if_pos rfl]

theorem lookup_insert_of_ne (done : List (String × Json)) {name other : String} (value : Json)
    (h : other ≠ name) : (insert done name value).lookup other = done.lookup other := by
  rw [insert]
  split
  · rename_i hany
    clear hany
    induction done with
    | nil => rfl
    | cons m done ih =>
      obtain ⟨held, old⟩ := m
      rw [List.map_cons, lookup_member other held]
      by_cases hheld : held = name
      · rw [if_pos (by simpa using hheld), lookup_member, if_neg h, if_neg (hheld ▸ h)]
        exact ih
      · rw [if_neg (by simpa using hheld), lookup_member, ih]
  · rw [List.lookup_append, lookup_member, if_neg h, List.lookup_nil, Option.or_none]

/-- The value of an object has under a name what its last member with that name has. -/
theorem lookup_members? {room : Nat} {members : List (Bytes × Node)} {done values : List (String × Json)}
    (h : members? room done members = some values) (name : String) :
    values.lookup name
      = match lastMember? members name with
        | some n => value? room n
        | none => done.lookup name := by
  induction members generalizing done with
  | nil =>
    cases h
    rfl
  | cons m rest ih =>
    obtain ⟨w, item⟩ := m
    rw [members?] at h
    obtain ⟨s, hs, h⟩ := Option.bind_eq_some_iff.mp h
    obtain ⟨j, hj, h⟩ := Option.bind_eq_some_iff.mp h
    rw [ih h, lastMember?_cons]
    -- a later member with the name comes before this one
    cases lastMember? rest name with
    | some n => rfl
    | none =>
      rw [hs]
      by_cases heq : name = s
      · subst heq
        rw [lookup_insert_self, if_pos rfl, Option.or_some]
        exact hj.symm
      · rw [lookup_insert_of_ne done j heq, if_neg fun h => heq (Option.some.inj h).symm]
        rfl

/-- The value of a string is its text, and no other value is a text. -/
theorem value?_bind_asString? (room : Nat) (n : Node) : (value? room n).bind asString? = n.text? := by
  cases n with
  | null | bool b => rfl
  | number written =>
    rw [value?]
    cases number? (.number written) <;> rfl
  | string written =>
    rw [value?]
    cases h : writtenText? written <;> simp [text?, h, asString?]
  | array items =>
    rw [value?]
    split
    · rfl
    · cases items? (room - 1) items <;> rfl
  | object members =>
    rw [value?]
    split
    · rfl
    · cases members? (room - 1) [] members <;> rfl

/-- The value of an object is an object. -/
theorem object_of_value? {room : Nat} {members : List (Bytes × Node)} {j : Json}
    (h : value? room (.object members) = some j) :
    ∃ values, j = .object values ∧ room ≠ 0 ∧ members? (room - 1) [] members = some values := by
  rw [value?] at h
  split at h
  · cases h
  · rename_i hroom
    obtain ⟨values, hvalues, rfl⟩ := Option.map_eq_some_iff.mp h
    exact ⟨values, rfl, hroom, hvalues⟩

/-- Only an object has an object as its value. -/
theorem value?_eq_object_iff {room : Nat} {n : Node} {values : List (String × Json)} :
    value? room n = some (.object values)
      ↔ ∃ members, n = .object members ∧ room ≠ 0 ∧ members? (room - 1) [] members = some values := by
  constructor
  · intro h
    cases n with
    | null | bool b => cases h
    | number written =>
      obtain ⟨k, -, hk⟩ := Option.map_eq_some_iff.mp h
      cases hk
    | string written =>
      obtain ⟨s, -, hs⟩ := Option.map_eq_some_iff.mp h
      cases hs
    | array items =>
      rw [value?] at h
      split at h
      · cases h
      · obtain ⟨js, -, hjs⟩ := Option.map_eq_some_iff.mp h
        cases hjs
    | object members =>
      obtain ⟨found, heq, hroom, hfound⟩ := object_of_value? h
      cases heq
      exact ⟨members, rfl, hroom, hfound⟩
  · rintro ⟨members, rfl, hroom, h⟩
    rw [value?, if_neg hroom, h]
    rfl

theorem mem_of_lastMember? {members : List (Bytes × Node)} {name : String} {n : Node}
    (h : lastMember? members name = some n) : ∃ w, (w, n) ∈ members := by
  obtain ⟨m, hm, rfl⟩ := Option.map_eq_some_iff.mp h
  exact ⟨m.1, List.mem_reverse.mp (List.mem_of_find?_eq_some hm)⟩

/-- The text that an object has under a name. -/
def memberText? (members : List (Bytes × Node)) (name : String) : Option String :=
  (lastMember? members name).bind text?

/-- The value of an object has the texts that the object has. -/
theorem lookup_members?_asString? {room : Nat} {members : List (Bytes × Node)}
    {values : List (String × Json)} (h : members? room [] members = some values) (name : String) :
    (values.lookup name).bind asString? = memberText? members name := by
  rw [lookup_members? h, memberText?]
  cases lastMember? members name with
  | none => rfl
  | some n => exact value?_bind_asString? room n

end Node

/-! ### Octets -/

theorem read?_eq_some_iff {b : Bytes} {j : Json} :
    read? b = some j ↔ ∃ n, Node.Writes n b ∧ Node.value? Node.nestingLimit n = some j := by
  simp only [read?, Option.bind_eq_some_iff, Node.read_eq_some_iff]

theorem read?_eq_none_iff {b : Bytes} :
    read? b = none ↔ ∀ n, Node.Writes n b → ¬Node.Keepable Node.nestingLimit n := by
  rw [Option.eq_none_iff_forall_not_mem]
  constructor
  · intro h n hn hkeep
    obtain ⟨j, hj⟩ := Node.exists_value?_iff.mpr hkeep
    exact h j (read?_eq_some_iff.mpr ⟨n, hn, hj⟩)
  · intro h j hj
    obtain ⟨n, hn, hvalue⟩ := read?_eq_some_iff.mp hj
    exact h n hn (Node.exists_value?_iff.mp ⟨j, hvalue⟩)

end Acme.Json
