import Acme.Proofs.Der
import Acme.Proofs.Json.Records
import Acme.Resource

/-!
# Values that survive being written

A way to read and a way to write belong together at a value that is read from its own written form
(`Stable`). They belong together altogether if that is so for every value that can be read at all
(`Settles`), however it was spelled: a text may give a number with too many digits, an object as an
array, or a word as an object with one member, but the value that comes out of it is written in one way
and read back from that.

The lemmas are about the parts that records are made of, so a record is shown to be stable member by
member.
-/

namespace Acme.Json

/-! ### Lists of values -/

@[simp] theorem itemsPlain_iff {items : List Json} :
    ItemsPlain items ↔ ∀ item ∈ items, Plain item := by
  induction items with
  | nil => simp [ItemsPlain]
  | cons item rest ih => simp [ItemsPlain, ih]

@[simp] theorem membersPlain_append {members rest : List (String × Json)} :
    MembersPlain (members ++ rest) ↔ MembersPlain members ∧ MembersPlain rest := by
  induction members with
  | nil => simp [MembersPlain]
  | cons m members ih => simp [MembersPlain, ih, and_assoc]

theorem itemNodes_eq_map (items : List Json) : itemNodes items = items.map node := by
  induction items with
  | nil => rfl
  | cons item rest ih => rw [itemNodes, ih, List.map_cons]

section

variable {α : Type} {name : String} {f : α → Json} {value : Option α}

@[simp] theorem membersPlain_member? :
    MembersPlain (member? name f value) ↔ ∀ a ∈ value, Plain (f a) := by
  cases value <;> simp [member?, MembersPlain]

theorem lookup_member? (other : String) :
    (member? name f value).lookup other = if other = name then value.map f else none := by
  cases value with
  | none => simp [member?]
  | some a => rw [member?, lookup_member, List.lookup_nil, Option.map_some]

end

/-! ### Values -/

variable {α β : Type} {read : Node → Option α} {write : α → Json} {a : α}

/-- A value is read from its own written form, which a text can contain and which is not null. -/
structure Stable (read : Node → Option α) (write : α → Json) (a : α) : Prop where
  plain : Plain (write a)
  read_node : read (write a).node = some a
  ne_null : (write a).node ≠ .null

/-- Every value that can be read is stable. -/
def Settles (read : Node → Option α) (write : α → Json) : Prop :=
  ∀ n a, read n = some a → Stable read write a

theorem stable_text (s : String) : Stable Node.text? .string s where
  plain := trivial
  read_node := writtenText?_written s
  ne_null := nofun

theorem stable_bool (b : Bool) : Stable Node.bool? .bool b where
  plain := trivial
  read_node := rfl
  ne_null := nofun

theorem settles_nat {bits : Nat} (hbits : bits ≤ 64) : Settles (Node.nat? bits) nat := by
  intro n k hread
  exact {
    plain := Int.natCast_nonneg k
    read_node := Node.nat?_decimals hbits (Node.lt_of_nat? hread)
    ne_null := nofun }

/-- A value that is read through its text. -/
theorem stable_textAs {text : α → String} {ofText? : String → Option α}
    (h : ofText? (text a) = some a) :
    Stable (Node.textAs? ofText?) (.string <| text ·) a where
  plain := trivial
  read_node := by
    rw [Node.textAs?, (stable_text (text a)).read_node]
    exact h
  ne_null := nofun

/-- A state that is read through its word. -/
theorem stable_nameAs {text : α → String} {ofText? : String → Option α}
    (h : ofText? (text a) = some a) :
    Stable (Node.nameAs? ofText?) (.string <| text ·) a where
  plain := trivial
  read_node := by
    have hname : (node (.string (text a))).name? = some (text a) := writtenText?_written _
    rw [Node.nameAs?, hname]
    exact h
  ne_null := nofun

theorem stable_list {as : List α} (h : ∀ a ∈ as, Stable read write a) :
    Stable (Node.list? read) (fun as => .array (as.map write)) as where
  plain := by
    show ItemsPlain (as.map write)
    simpa using fun a ha => (h a ha).plain
  read_node := by
    show (itemNodes (as.map write)).mapM read = some as
    rw [mapM_eq_some_iff, itemNodes_eq_map, List.map_map, List.map_map]
    exact List.map_congr_left fun a ha => (h a ha).read_node
  ne_null := nofun

theorem stable_strings (ss : List String) : Stable (Node.list? Node.text?) strings ss :=
  stable_list fun s _ => stable_text s

theorem Settles.list (h : Settles read write) :
    Settles (Node.list? read) (fun as => .array (as.map write)) := by
  intro n as hread
  refine stable_list fun a ha => ?_
  unfold Node.list? at hread
  split at hread
  · rename_i items
    rw [mapM_eq_some_iff] at hread
    obtain ⟨item, -, hitem⟩ := List.mem_map.mp (hread ▸ List.mem_map_of_mem ha)
    exact h item a hitem
  · cases hread

/-! ### Members of records

First what a record gives is stable, then a stable member is found again in the record that was
written. -/

section

variable {r : Record} {name : String}

theorem Settles.withDefault {value : α} (h : Settles read write) (hvalue : Stable read write value)
    (hread : r.withDefault name read value = some a) : Stable read write a := by
  unfold Record.withDefault at hread
  split at hread
  · exact h _ a hread
  · cases hread
    exact hvalue

theorem Settles.optional {value : Option α} (h : Settles read write)
    (hread : r.optional name read = some value) : ∀ a ∈ value, Stable read write a := by
  unfold Record.optional Record.withDefault at hread
  split at hread
  · rename_i n _
    unfold Node.nullable at hread
    split at hread
    · cases hread
      exact nofun
    · obtain ⟨b, hb, hvalue⟩ := Option.map_eq_some_iff.mp hread
      rintro a rfl
      cases hvalue
      exact h n _ hb
  · cases hread
    exact nofun

theorem Stable.required (h : Stable read write a) (hfind : r.find? name = some (write a).node) :
    r.required name read = some a := by
  rw [Record.required, hfind, Option.bind_some, h.read_node]

theorem Stable.withDefault {value : α} (h : Stable read write a)
    (hfind : r.find? name = some (write a).node) : r.withDefault name read value = some a := by
  rw [Record.withDefault, hfind]
  exact h.read_node

theorem Stable.optional {value : Option α} (h : ∀ a ∈ value, Stable read write a)
    (hfind : r.find? name = (value.map write).map node) : r.optional name read = some value :=
  Record.optional_written hfind fun a ha => ⟨(h a ha).read_node, (h a ha).ne_null⟩

theorem Stable.nullable {value : Option α} (h : ∀ a ∈ value, Stable read write a)
    (hplace : r.byPlace = false) (hfind : r.find? name = (value.map write).map node) :
    r.nullable name read = some value :=
  Record.nullable_written hplace hfind fun a ha => ⟨(h a ha).read_node, (h a ha).ne_null⟩

end

end Acme.Json
