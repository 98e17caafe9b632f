import Acme.Proofs.Der
import Acme.Proofs.Json.Records

/-!
# Members of texts

Which members a text gives, told from the text itself and not from the record that is made of it: a
member that is not there (`Node.Lacks`) is not found in any record, and a member that an object gives is
found in every record that knows its name, also in one that knows nothing else.
-/

namespace Acme.Json

namespace Node

/-- A text does not give a member of a record with these names: an object has no member with that name,
an array ends before its place. -/
def Lacks (names : List String) (name : String) : Node → Prop
  | .object members => ∀ m ∈ members, writtenText? m.1 ≠ some name
  | .array items => items.length ≤ names.idxOf name
  | _ => True

/-- A text is an object that gives a member as a string. -/
def GivesText (name : String) (n : Node) : Prop :=
  ∃ members m text, n = .object members ∧ (m, .string text) ∈ members ∧ writtenText? m = some name

variable {members : List (Bytes × Node)} {named : List (String × Node)} {names : List String}
  {name : String}

theorem mem_of_named? (h : named? members = some named) {m : String × Node} :
    m ∈ named ↔ ∃ w, (w, m.2) ∈ members ∧ writtenText? w = some m.1 := by
  have hsome : m ∈ named ↔ some m ∈ named.map some := by simp
  rw [named?, mapM_eq_some_iff] at h
  rw [hsome, ← h, List.mem_map]
  constructor
  · rintro ⟨⟨w, v⟩, hmem, heq⟩
    obtain ⟨text, htext, hm⟩ := Option.map_eq_some_iff.mp heq
    subst hm
    exact ⟨w, hmem, htext⟩
  · rintro ⟨w, hmem, htext⟩
    exact ⟨(w, m.2), hmem, by rw [htext]; rfl⟩

theorem lookup_zip_of_length_le {items : List Node} (h : items.length ≤ names.idxOf name) :
    (names.zip items).lookup name = none := by
  induction names generalizing items with
  | nil => rfl
  | cons other names ih =>
    cases items with
    | nil => rfl
    | cons item items =>
      by_cases heq : name = other
      · rw [heq, List.idxOf_cons_self] at h
        cases h
      · rw [List.idxOf_cons, beq_eq_false_iff_ne.mpr (Ne.symm heq)] at h
        rw [List.zip_cons_cons, lookup_member, if_neg heq]
        exact ih (Nat.le_of_succ_le_succ h)

/-- The record of an object, by the readable names of its members. -/
theorem record?_object {r : Record} (h : (Node.object members).record? names = some r) :
    ∃ named, named? members = some named ∧ (∀ name ∈ names,
        (named.filter fun m => names.contains m.1).countP (·.1 == name) ≤ 1)
      ∧ r = ⟨named.filter fun m => names.contains m.1, false⟩ := by
  rw [record?] at h
  obtain ⟨named, hnamed, h⟩ := Option.bind_eq_some_iff.mp h
  dsimp only at h
  split at h
  · rename_i honce
    cases h
    exact ⟨named, hnamed, by simpa using honce, rfl⟩
  · cases h

/-- What a text does not give is not found. -/
theorem find?_of_lacks {n : Node} {r : Record} (h : n.Lacks names name)
    (hr : n.record? names = some r) : r.find? name = none := by
  cases n with
  | object members =>
    obtain ⟨named, hnamed, -, rfl⟩ := record?_object hr
    refine List.lookup_eq_none_iff.mpr fun m hm => ?_
    obtain ⟨w, hw, htext⟩ := (mem_of_named? hnamed).mp (List.mem_filter.mp hm).1
    rw [bne_iff_ne]
    rintro rfl
    exact h _ hw htext
  | array items =>
    rw [record?] at hr
    split at hr
    · cases hr
      exact lookup_zip_of_length_le h
    · cases hr
  | null | bool _ | number _ | string _ => cases hr

theorem lookup_of_countP_le_one {β : Type} {l : List (String × β)} {v : β} (hmem : (name, v) ∈ l)
    (h : l.countP (·.1 == name) ≤ 1) : l.lookup name = some v := by
  induction l with
  | nil => cases hmem
  | cons m l ih =>
    obtain ⟨other, value⟩ := m
    rw [List.countP_cons] at h
    rw [lookup_member]
    by_cases heq : name = other
    · -- another one would be the second
      subst heq
      have hnone : l.countP (·.1 == name) = 0 := by
        simp only [beq_self_eq_true, if_true] at h
        omega
      rw [if_pos rfl]
      rcases List.mem_cons.mp hmem with heq | hmem
      · cases heq
        rfl
      · exact absurd (List.countP_eq_zero.mp hnone _ hmem) (by simp)
    · have hrest : (name, v) ∈ l := by
        rcases List.mem_cons.mp hmem with hsame | hmem
        · cases hsame
          exact absurd rfl heq
        · exact hmem
      rw [if_neg heq]
      exact ih hrest (by omega)

/-- A member that an object gives is found in every record that knows its name, and also in the one that
knows no other. -/
theorem find?_of_mem {r : Record} {m : Bytes} {v : Node}
    (hr : (Node.object members).record? names = some r) (hname : name ∈ names)
    (hmem : (m, v) ∈ members) (hm : writtenText? m = some name) :
    r.find? name = some v
      ∧ ∃ alone, (Node.object members).record? [name] = some alone ∧ alone.find? name = some v := by
  obtain ⟨named, hnamed, honce, rfl⟩ := record?_object hr
  have hgiven : (name, v) ∈ named := (mem_of_named? hnamed).mpr ⟨m, hmem, hm⟩
  -- the record would not have been read if the name were there twice
  have hone : named.countP (·.1 == name) ≤ 1 := countP_known hname named ▸ honce name hname
  have hfind (names : List String) (hname : name ∈ names) :
      (named.filter fun m => names.contains m.1).lookup name = some v := by
    rw [lookup_known hname]
    exact lookup_of_countP_le_one hgiven hone
  refine ⟨hfind names hname, ⟨named.filter fun m => [name].contains m.1, false⟩, ?_,
    hfind [name] (by simp)⟩
  rw [record?, hnamed, Option.bind_eq_bind, Option.bind_some]
  refine if_pos ?_
  rw [List.all_eq_true]
  intro other hother
  rw [List.mem_singleton.mp hother, countP_known (by simp)]
  exact decide_eq_true hone

end Node

end Acme.Json
