import Acme.Proofs.Json.Members

/-!
# Arrangements of texts

The members of an object may stand in any order and among others that nobody knows. `Node.Rearranged s`
says that two texts differ in nothing else, `s` being what a reader makes of them: only the members of
records may be arranged, at any depth.

Readers do not tell such texts apart (`Overlooks`). The law of a record is `overlooks_record`: records of
rearranged texts agree (`record?_rearranged`), and a reader that asks agreeing records for their members
is told the same (`Record.Agrees`).
-/

namespace Acme.Json

/-- What a reader makes of a text. -/
inductive Shape
  /-- Something that is taken as it stands. -/
  | value
  | list (item : Shape)
  | record (fields : List (String × Shape))

namespace Node

/-- The second text is the first one with the members of its records in another order and among others,
which are none of their fields. -/
inductive Rearranged : Shape → Node → Node → Prop
  | refl {s : Shape} (n : Node) : Rearranged s n n
  | trans {s : Shape} {n m k : Node} (h : Rearranged s n m) (h' : Rearranged s m k) : Rearranged s n k
  | permuted {fields : List (String × Shape)} {members members' : List (Bytes × Node)}
    (h : members.Perm members') : Rearranged (.record fields) (.object members) (.object members')
  | extended {fields : List (String × Shape)} {before after : List (Bytes × Node)} {written : Bytes}
    {name : String} (value : Node) (hname : writtenText? written = some name)
    (hnew : name ∉ fields.map (·.1)) :
    Rearranged (.record fields) (.object (before ++ after))
      (.object (before ++ (written, value) :: after))
  | member {fields : List (String × Shape)} {before after : List (Bytes × Node)} {written : Bytes}
    {name : String} {s : Shape} {v v' : Node} (hname : writtenText? written = some name)
    (hs : fields.lookup name = some s) (h : Rearranged s v v') :
    Rearranged (.record fields) (.object (before ++ (written, v) :: after))
      (.object (before ++ (written, v') :: after))
  /-- A record may be an array of its members, which have their places. -/
  | place {fields fields' : List (String × Shape)} {before after : List Node} {name : String}
    {s : Shape} {v v' : Node} (hplace : before.length = fields.length) (h : Rearranged s v v') :
    Rearranged (.record (fields ++ (name, s) :: fields')) (.array (before ++ v :: after))
      (.array (before ++ v' :: after))
  | item {s : Shape} {before after : List Node} {v v' : Node} (h : Rearranged s v v') :
    Rearranged (.list s) (.array (before ++ v :: after)) (.array (before ++ v' :: after))

/-- A reader does not tell rearranged texts apart. -/
def Overlooks {α : Type} (s : Shape) (read : Node → Option α) : Prop :=
  ∀ {n n' : Node}, Rearranged s n n' → read n' = read n

variable {α : Type} {s : Shape} {read : Node → Option α}

theorem overlooks_value : Overlooks .value read := by
  intro n n' h
  generalize hs : Shape.value = s at h
  induction h with
  | refl n => rfl
  | trans _ _ ih ih' => exact (ih' hs).trans (ih hs)
  | _ => cases hs

theorem Rearranged.eq_null_iff {n n' : Node} (h : Rearranged s n n') : n' = .null ↔ n = .null := by
  induction h with
  | refl n => exact Iff.rfl
  | trans _ _ ih ih' => exact ih'.trans ih
  | _ => simp

theorem Overlooks.nullable (h : Overlooks s read) : Overlooks s (Node.nullable read) := by
  intro n n' hn
  by_cases hnull : n = .null
  · rw [hnull, hn.eq_null_iff.mpr hnull]
  · rw [Node.nullable_of_ne_null hnull, Node.nullable_of_ne_null (mt hn.eq_null_iff.mp hnull), h hn]

theorem Overlooks.list (h : Overlooks s read) : Overlooks (.list s) (Node.list? read) := by
  intro n n' hn
  generalize hs : Shape.list s = s' at hn
  induction hn with
  | refl n => rfl
  | trans _ _ ih ih' => exact (ih' hs).trans (ih hs)
  | item hv =>
    cases hs
    rw [Node.list?, Node.list?, List.mapM_append, List.mapM_append, List.mapM_cons, List.mapM_cons, h hv]
  | _ => cases hs

/-! ### Named members -/

variable {fields : List (String × Shape)} {name : String}

/-- Two lists give every field as often, and a field that they give once as rearranged texts. -/
def AgreeOn (fields : List (String × Shape)) (l l' : List (String × Node)) : Prop :=
  ∀ name s, fields.lookup name = some s → l'.countP (·.1 == name) = l.countP (·.1 == name)
    ∧ (l.countP (·.1 == name) ≤ 1 → Option.Rel (Rearranged s) (l.lookup name) (l'.lookup name))

theorem rel_refl {β : Type} {R : β → β → Prop} (h : ∀ b, R b b) : ∀ o, Option.Rel R o o
  | none => .none
  | some b => .some (h b)

theorem rel_cases {β : Type} {R : β → β → Prop} {o o' : Option β} (h : Option.Rel R o o') :
    (o = none ∧ o' = none) ∨ ∃ b b', o = some b ∧ o' = some b' ∧ R b b' := by
  cases h with
  | none => exact .inl ⟨rfl, rfl⟩
  | some h => exact .inr ⟨_, _, rfl, rfl, h⟩

theorem rel_trans {β : Type} {R : β → β → Prop} (h : ∀ a b c, R a b → R b c → R a c)
    {o p q : Option β} (hop : Option.Rel R o p) (hpq : Option.Rel R p q) : Option.Rel R o q := by
  cases hop with
  | none => exact hpq
  | some hab =>
    cases hpq with
    | some hbc => exact .some (h _ _ _ hab hbc)

theorem named?_cons (m : Bytes × Node) (members : List (Bytes × Node)) :
    named? (m :: members)
      = (writtenText? m.1).bind fun name => (named? members).map ((name, m.2) :: ·) := by
  rw [named?, List.mapM_cons]
  cases writtenText? m.1 with
  | none => rfl
  | some name =>
    show ((named? members).bind fun named => some ((name, m.2) :: named)) = _
    cases named? members <;> rfl

theorem named?_perm {members members' : List (Bytes × Node)} (h : members.Perm members') :
    Option.Rel List.Perm (named? members) (named? members') := by
  induction h with
  | nil => exact .some (.refl _)
  | @cons m members members' _ ih =>
    rw [named?_cons, named?_cons]
    cases writtenText? m.1 with
    | none => exact .none
    | some name =>
      rcases rel_cases ih with ⟨hl, hl'⟩ | ⟨l, l', hl, hl', hperm⟩
      · rw [hl, hl']
        exact .none
      · rw [hl, hl']
        exact .some (hperm.cons _)
  | swap m m' members =>
    simp only [named?_cons]
    cases writtenText? m.1 <;> cases writtenText? m'.1 <;> cases named? members
    case some.some.some => exact .some (.swap _ _ _)
    -- where a name cannot be read there is no record, in whatever order
    all_goals exact .none
  | trans _ _ ih ih' => exact rel_trans (fun _ _ _ h h' => h.trans h') ih ih'

theorem mem_of_lookup {β : Type} {l : List (String × β)} {v : β} (h : l.lookup name = some v) :
    (name, v) ∈ l := by
  obtain ⟨before, after, rfl, -⟩ := List.lookup_eq_some_iff.mp h
  simp

theorem lookup_perm {β : Type} {l l' : List (String × β)} (h : l.Perm l')
    (hone : l.countP (·.1 == name) ≤ 1) : l'.lookup name = l.lookup name := by
  cases hl : l.lookup name with
  | some v => exact lookup_of_countP_le_one (h.subset (mem_of_lookup hl)) (h.countP_eq _ ▸ hone)
  | none =>
    rw [List.lookup_eq_none_iff] at hl ⊢
    intro m hm
    exact hl m (h.symm.subset hm)

theorem named?_append (members members' : List (Bytes × Node)) :
    named? (members ++ members')
      = (named? members).bind fun named => (named? members').map (named ++ ·) := by
  rw [named?, List.mapM_append]
  show ((named? members).bind fun named => (named? members').bind fun named' => some (named ++ named'))
    = _
  cases named? members' <;> rfl

/-! ### Lists that agree -/

theorem agreeOn_perm {l l' : List (String × Node)} (h : l.Perm l') : AgreeOn fields l l' := by
  intro name s _
  refine ⟨(h.countP_eq _).symm, fun hone => ?_⟩
  rw [lookup_perm h hone]
  exact rel_refl .refl _

/-- A further member that is no field. -/
theorem agreeOn_extended {before after : List (String × Node)} (hnew : name ∉ fields.map (·.1))
    (value : Node) : AgreeOn fields (before ++ after) (before ++ (name, value) :: after) := by
  intro other s hs
  have hother : other ≠ name := by
    rintro rfl
    exact hnew (List.mem_map.mpr ⟨_, mem_of_lookup hs, rfl⟩)
  refine ⟨by simp [hother.symm], fun _ => ?_⟩
  rw [List.lookup_append, List.lookup_append, lookup_member, if_neg hother]
  exact rel_refl .refl _

/-- A member that is rearranged. -/
theorem agreeOn_member {before after : List (String × Node)} {v v' : Node}
    (hs : fields.lookup name = some s) (h : Rearranged s v v') :
    AgreeOn fields (before ++ (name, v) :: after) (before ++ (name, v') :: after) := by
  intro other s' hs'
  refine ⟨by simp [List.countP_cons], fun _ => ?_⟩
  rw [List.lookup_append, List.lookup_append, lookup_member, lookup_member]
  cases before.lookup other with
  | some v => exact .some (.refl v)
  | none =>
    by_cases hother : other = name
    · subst hother
      rw [hs] at hs'
      cases hs'
      rw [if_pos rfl, if_pos rfl]
      exact .some h
    · rw [if_neg hother, if_neg hother]
      exact rel_refl .refl _

end Node

/-! ### Records -/

/-- Two records give the same fields, each as rearranged texts. -/
structure Record.Agrees (fields : List (String × Shape)) (r r' : Record) : Prop where
  byPlace : r'.byPlace = r.byPlace
  find? {name : String} {s : Shape} (hs : fields.lookup name = some s) :
    Option.Rel (Node.Rearranged s) (r.find? name) (r'.find? name)

namespace Record.Agrees

variable {α : Type} {fields : List (String × Shape)} {r r' : Record} {s : Shape}
  {read : Node → Option α}

theorem refl (r : Record) : Agrees fields r r where
  byPlace := rfl
  find? _ := Node.rel_refl .refl _

theorem trans {r'' : Record} (h : Agrees fields r r') (h' : Agrees fields r' r'') :
    Agrees fields r r'' where
  byPlace := h'.byPlace.trans h.byPlace
  find? hs := Node.rel_trans (fun _ _ _ => .trans) (h.find? hs) (h'.find? hs)

theorem required (h : Agrees fields r r') (name : String) (hs : fields.lookup name = some s)
    (hread : Node.Overlooks s read) : r'.required name read = r.required name read := by
  rw [Record.required, Record.required]
  rcases Node.rel_cases (h.find? hs) with ⟨hr, hr'⟩ | ⟨n, n', hr, hr', hn⟩
  · rw [hr, hr']
  · rw [hr, hr']
    exact hread hn

theorem withDefault (h : Agrees fields r r') (name : String) (hs : fields.lookup name = some s)
    (hread : Node.Overlooks s read) (value : α) :
    r'.withDefault name read value = r.withDefault name read value := by
  rw [Record.withDefault, Record.withDefault]
  rcases Node.rel_cases (h.find? hs) with ⟨hr, hr'⟩ | ⟨n, n', hr, hr', hn⟩
  · rw [hr, hr']
  · rw [hr, hr']
    exact hread hn

theorem optional (h : Agrees fields r r') (name : String) (hs : fields.lookup name = some s)
    (hread : Node.Overlooks s read) : r'.optional name read = r.optional name read :=
  h.withDefault name hs hread.nullable none

end Record.Agrees

namespace Node

variable {α : Type} {fields : List (String × Shape)} {name : String}

/-- The records of objects whose named members agree. -/
theorem record?_of_agreeOn {members members' : List (Bytes × Node)}
    (h : Option.Rel (AgreeOn fields) (named? members) (named? members')) :
    Option.Rel (Record.Agrees fields) ((object members).record? (fields.map (·.1)))
      ((object members').record? (fields.map (·.1))) := by
  have hfield {name : String} (hname : name ∈ fields.map (·.1)) : ∃ s, fields.lookup name = some s := by
    obtain ⟨field, hmem, rfl⟩ := List.mem_map.mp hname
    exact Option.isSome_iff_exists.mp (List.lookup_isSome_iff.mpr ⟨field, hmem, beq_self_eq_true _⟩)
  have hname {name : String} {s : Shape} (hs : fields.lookup name = some s) :
      name ∈ fields.map (·.1) :=
    List.mem_map.mpr ⟨_, mem_of_lookup hs, rfl⟩
  rw [record?, record?]
  rcases rel_cases h with ⟨hl, hl'⟩ | ⟨l, l', hl, hl', hagree⟩
  · rw [hl, hl']
    exact .none
  · rw [hl, hl']
    simp only [Option.bind_eq_bind, Option.bind_some]
    -- the same names are known, and each occurs as often as before
    have hcount (name : String) (hname : name ∈ fields.map (·.1)) :
        (l'.filter fun m => (fields.map (·.1)).contains m.1).countP (·.1 == name)
          = (l.filter fun m => (fields.map (·.1)).contains m.1).countP (·.1 == name) := by
      obtain ⟨s, hs⟩ := hfield hname
      rw [countP_known hname, countP_known hname, (hagree name s hs).1]
    have hall : ((fields.map (·.1)).all fun name =>
          (l'.filter fun m => (fields.map (·.1)).contains m.1).countP (·.1 == name) ≤ 1)
        = (fields.map (·.1)).all fun name =>
          (l.filter fun m => (fields.map (·.1)).contains m.1).countP (·.1 == name) ≤ 1 := by
      rw [Bool.eq_iff_iff, List.all_eq_true, List.all_eq_true]
      exact forall₂_congr fun name hname => by rw [hcount name hname]
    rw [hall]
    split
    · rename_i honce
      refine .some ⟨rfl, fun {name s} hs => ?_⟩
      have hone := of_decide_eq_true (List.all_eq_true.mp honce name (hname hs))
      rw [countP_known (hname hs)] at hone
      rw [Record.find?, Record.find?, lookup_known (hname hs), lookup_known (hname hs)]
      exact (hagree name s hs).2 hone
    · exact .none

/-- Arrays of members, one of which is rearranged. -/
theorem rel_lookup_zip {fields' : List (String × Shape)} {before after : List Node} {s : Shape}
    {v v' : Node} (hplace : before.length = fields.length) (h : Rearranged s v v') {other : String}
    {s' : Shape} (hs : (fields ++ (name, s) :: fields').lookup other = some s') :
    Option.Rel (Rearranged s')
      ((((fields ++ (name, s) :: fields').map (·.1)).zip (before ++ v :: after)).lookup other)
      ((((fields ++ (name, s) :: fields').map (·.1)).zip (before ++ v' :: after)).lookup other) := by
  induction fields generalizing before with
  | nil =>
    -- this is the place: its name is told by the list, not by the array
    obtain rfl := List.length_eq_zero_iff.mp hplace
    simp only [List.nil_append, List.map_cons, List.zip_cons_cons, lookup_member] at hs ⊢
    by_cases hother : other = name
    · rw [if_pos hother] at hs
      cases hs
      rw [if_pos hother, if_pos hother]
      exact .some h
    · rw [if_neg hother, if_neg hother]
      exact rel_refl .refl _
  | cons field fields ih =>
    obtain ⟨first, shape⟩ := field
    cases before with
    | nil => cases hplace
    | cons item before =>
      simp only [List.cons_append, List.map_cons, List.zip_cons_cons, lookup_member] at hs ⊢
      by_cases hother : other = first
      · rw [if_pos hother, if_pos hother]
        exact .some (.refl item)
      · rw [if_neg hother] at hs ⊢
        rw [if_neg hother]
        exact ih (Nat.succ.inj hplace) hs

/-- The records of rearranged texts agree. -/
theorem record?_rearranged {n n' : Node} (h : Rearranged (.record fields) n n') :
    Option.Rel (Record.Agrees fields) (n.record? (fields.map (·.1))) (n'.record? (fields.map (·.1))) := by
  generalize hs : Shape.record fields = s at h
  induction h with
  | refl n => exact rel_refl .refl _
  | trans _ _ ih ih' => exact rel_trans (fun _ _ _ => .trans) (ih hs) (ih' hs)
  | permuted h =>
    -- what matters of an object is which values its names have
    apply record?_of_agreeOn
    rcases rel_cases (named?_perm h) with ⟨hl, hl'⟩ | ⟨l, l', hl, hl', hperm⟩
    · rw [hl, hl']
      exact .none
    · rw [hl, hl']
      exact .some (agreeOn_perm hperm)
  | @extended _ before after written name value hname hnew =>
    cases hs
    apply record?_of_agreeOn
    rw [named?_append, named?_append, named?_cons, hname]
    cases named? before with
    | none => exact .none
    | some before =>
      cases named? after with
      | none => exact .none
      | some after => exact .some (agreeOn_extended hnew value)
  | @member _ before after written name s v v' hname hlookup hv =>
    cases hs
    apply record?_of_agreeOn
    rw [named?_append, named?_append, named?_cons, named?_cons, hname]
    cases named? before with
    | none => exact .none
    | some before =>
      cases named? after with
      | none => exact .none
      | some after => exact .some (agreeOn_member hlookup hv)
  | @place fields fields' before after name s v v' hplace hv =>
    cases hs
    -- an array has the same length still, so it is read or refused as before
    simp only [record?, List.length_append, List.length_cons]
    by_cases hlength : before.length + (after.length + 1)
        ≤ ((fields ++ (name, s) :: fields').map (·.1)).length
    · rw [if_pos hlength, if_pos hlength]
      exact .some ⟨rfl, rel_lookup_zip hplace hv⟩
    · rw [if_neg hlength, if_neg hlength]
      exact .none
  | item => cases hs

/-- A reader of records that is told the same by records that agree. -/
theorem overlooks_record {read : Record → Option α}
    (h : ∀ r r', Record.Agrees fields r r' → read r' = read r) :
    Overlooks (.record fields) fun n => (n.record? (fields.map (·.1))).bind read := by
  intro n n' hn
  dsimp only
  rcases rel_cases (record?_rearranged hn) with ⟨hr, hr'⟩ | ⟨r, r', hr, hr', hagree⟩
  · rw [hr, hr']
  · rw [hr, hr']
    exact h r r' hagree

end Node

end Acme.Json
