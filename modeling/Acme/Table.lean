/-!
# Tables

Finite tables from keys to values, kept as lists of entries. `get?` is the view of a table: the
lemmas say what each operation does to it. No operation leaves two entries for one key, so `size` is
the number of keys.
-/

namespace Acme

structure Table (κ α : Type) where
  entries : List (κ × α)
  deriving DecidableEq, Repr

namespace Table

variable {κ α : Type} [DecidableEq κ]

/-- The table without entries. -/
def empty : Table κ α := ⟨[]⟩

/-- The value under a key. -/
def get? (t : Table κ α) (key : κ) : Option α := t.entries.lookup key

/-- Takes away the entry of a key. -/
def erase (t : Table κ α) (key : κ) : Table κ α := ⟨t.entries.filter (¬ key = ·.1)⟩

/-- Puts a value under a key in place of the one that is there. -/
def insert (t : Table κ α) (key : κ) (value : α) : Table κ α :=
  ⟨(key, value) :: (t.erase key).entries⟩

/-- How many entries there are. -/
def size (t : Table κ α) : Nat := t.entries.length

@[simp] theorem get?_empty (key : κ) : (empty : Table κ α).get? key = none := rfl

@[simp] theorem get?_erase (t : Table κ α) (key other : κ) :
    (t.erase key).get? other = if key = other then none else t.get? other := by
  obtain ⟨entries⟩ := t
  simp only [get?, erase]
  induction entries with
  | nil => simp
  | cons entry entries ih =>
    by_cases he : key = entry.1
    · rw [List.filter_cons_of_neg (by simp [he]), ih, List.lookup_cons]
      by_cases ho : key = other
      · simp [ho]
      · have hb : (other == entry.1) = false := by simpa using fun h => ho (he.trans h.symm)
        simp [ho, hb]
    · rw [List.filter_cons_of_pos (by simp [he]), List.lookup_cons, List.lookup_cons, ih]
      by_cases ho : other = entry.1
      · have : ¬ key = other := fun h => he (h.trans ho)
        simp [this]
      · have hb : (other == entry.1) = false := by simpa using ho
        simp [hb]

@[simp] theorem get?_insert (t : Table κ α) (key other : κ) (value : α) :
    (t.insert key value).get? other = if key = other then some value else t.get? other := by
  by_cases h : key = other
  · simp [get?, insert, h]
  · have hb : (other == key) = false := by simpa using Ne.symm h
    have := get?_erase t key other
    simp only [get?, if_neg h] at this
    simp [get?, insert, List.lookup_cons, hb, h, this]

/-- A table that has nothing under any key has no entries. -/
theorem size_eq_zero {t : Table κ α} (h : ∀ key, t.get? key = none) : t.size = 0 := by
  obtain ⟨entries⟩ := t
  cases entries with
  | nil => rfl
  | cons entry entries =>
    have hfirst := h entry.1
    simp [get?] at hfirst

end Table

end Acme
