import Acme.Storage.Files

/-!
# Trees of directories

What the functions on a `FileTree` do when no file stands in the way: a path leads to its entry or breaks
off (`find_cases`), and a file is written after the directories above it are made (`write_apply`).
Nothing but the way to a path is touched (`Made`).
-/

namespace Acme.Storage

/-- A way to a path goes along one part, and possibly into the other. -/
theorem prefix_append_cases {q above path : Path} (h : q <+: above ++ path) :
    q <+: above ∨ ∃ r, r ≠ [] ∧ r <+: path ∧ q = above ++ r := by
  rcases List.prefix_or_prefix_of_prefix h (List.prefix_append above path) with hq | ⟨r, rfl⟩
  · exact .inl hq
  · by_cases hr : r = []
    · exact .inl (by simp [hr])
    · exact .inr ⟨r, hr, (List.prefix_append_right_inj above).mp h, rfl⟩

theorem prefix_dropLast_iff {q path : Path} (h : path ≠ []) :
    q <+: path.dropLast ↔ q <+: path ∧ q ≠ path := by
  obtain ⟨above, name, rfl⟩ := List.eq_nil_or_concat path |>.resolve_left h
  rw [List.concat_eq_append, List.dropLast_concat, List.prefix_concat_iff]
  constructor
  · intro hq
    refine ⟨.inr hq, ?_⟩
    rintro rfl
    exact absurd hq.length_le (by simp)
  · rintro ⟨rfl | hq, hne⟩
    · exact absurd rfl hne
    · exact hq

namespace FileTree

variable {t t' : FileTree} {above path rest : Path}

/-- A path whose names are not too long, and which is not too long itself. -/
structure Admits (t : FileTree) (path : Path) : Prop where
  whole : t.pathTooLong path = false
  name {name : String} (h : name ∈ path) : t.nameTooLong name = false

theorem Admits.of_limits (h : t'.limits = t.limits) (hadmits : t.Admits path) : t'.Admits path where
  whole := by
    rw [pathTooLong, h]
    exact hadmits.whole
  name hname := by
    rw [nameTooLong, h]
    exact hadmits.name hname

theorem admits_of_none (h : t.limits = none) (path : Path) : t.Admits path where
  whole := by rw [pathTooLong, h]; rfl
  name _ := by rw [nameTooLong, h]; rfl

theorem length_append (above path : Path) : length (above ++ path) = length above + length path := by
  have hfrom (n : Nat) (path : Path) :
      path.foldl (fun n name => n + name.utf8ByteSize + 1) n = n + length path := by
    induction path generalizing n with
    | nil => rfl
    | cons name path ih =>
      rw [length, List.foldl_cons, List.foldl_cons, ih, ih]
      omega
  rw [length, List.foldl_append, hfrom]
  rfl

theorem Admits.parent (h : path <+: rest) (hadmits : t.Admits rest) : t.Admits path where
  whole := by
    obtain ⟨more, rfl⟩ := h
    have hpath := hadmits.whole
    rw [pathTooLong, Option.any_eq_false] at hpath ⊢
    intro limits hlimits
    have hlimit := hpath limits hlimits
    rw [decide_eq_false_iff_not, length_append] at hlimit
    rw [decide_eq_false_iff_not]
    omega
  name hname := hadmits.name (h.subset hname)

/-! ### Finding entries -/

/-- A way with no file on it leads to an entry, or breaks off where nothing is. -/
theorem findFrom_cases (hrest : rest ≠ []) (hnames : ∀ name ∈ rest, t.nameTooLong name = false)
    (hclear : ∀ q, q <+: rest → q ≠ rest → q ≠ [] →
      ∀ data, t.entries.get? (above ++ q) ≠ some (.file data)) :
    (∃ entry, t.entries.get? (above ++ rest) = some entry
        ∧ t.findFrom above .directory rest = .ok entry)
      ∨ ∃ q, q <+: rest ∧ q ≠ [] ∧ t.entries.get? (above ++ q) = none
        ∧ t.findFrom above .directory rest = .error .missing := by
  induction rest generalizing above with
  | nil => exact absurd rfl hrest
  | cons name rest ih =>
    have hname : t.nameTooLong name = false := hnames name (by simp)
    rw [findFrom, if_neg (by simp [hname])]
    cases hentry : t.entries.get? (above ++ [name]) with
    | none => exact .inr ⟨[name], by simp, by simp, hentry, rfl⟩
    | some entry =>
      by_cases hlast : rest = []
      · subst hlast
        exact .inl ⟨entry, hentry, rfl⟩
      · -- there is more of the way, so this is no file
        have hdirectory : entry = .directory := by
          cases entry with
          | directory => rfl
          | file data =>
            have hproper : [name] ≠ name :: rest := by simpa using Ne.symm hlast
            exact absurd hentry (hclear [name] (by simp) hproper (by simp) data)
        subst hdirectory
        have hmore := @ih (above ++ [name]) hlast (fun name h => hnames name (by simp [h]))
          fun q hq hne _ data => by
            rw [List.append_assoc]
            exact hclear (name :: q) (by simpa using hq) (by simpa using hne) (by simp) data
        rcases hmore with ⟨entry, h, hfind⟩ | ⟨q, hq, -, h, hfind⟩
        · rw [List.append_assoc] at h
          exact .inl ⟨entry, h, hfind⟩
        · rw [List.append_assoc] at h
          exact .inr ⟨name :: q, by simpa using hq, by simp, h, hfind⟩

theorem find_cases (hpath : path ≠ []) (hadmits : t.Admits path)
    (hclear : ∀ q, q <+: path → q ≠ path → q ≠ [] → ∀ data, t.entries.get? q ≠ some (.file data)) :
    (∃ entry, t.entries.get? path = some entry ∧ t.find path = .ok entry)
      ∨ ∃ q, q <+: path ∧ q ≠ [] ∧ t.entries.get? q = none ∧ t.find path = .error .missing := by
  rw [find, if_neg (by simp [hadmits.whole])]
  exact @findFrom_cases t [] path hpath (fun _ => hadmits.name) hclear

/-! ### Making directories -/

/-- A tree with directories on the way from one directory to another, and as before elsewhere. -/
structure Made (t t' : FileTree) (above rest : Path) : Prop where
  limits : t'.limits = t.limits
  directory {q : Path} (hq : q <+: rest) (hne : q ≠ []) :
    t'.entries.get? (above ++ q) = some .directory
  same {path : Path} (h : ∀ q, q <+: rest → q ≠ [] → path ≠ above ++ q) :
    t'.entries.get? path = t.entries.get? path

/-- The first directory, and then those below it. -/
theorem Made.cons {middle : FileTree} {name : String} (h : Made middle t' (above ++ [name]) rest)
    (hlimits : middle.limits = t.limits)
    (hmiddle : ∀ path, middle.entries.get? path
      = if above ++ [name] = path then some .directory else t.entries.get? path) :
    Made t t' above (name :: rest) where
  limits := h.limits.trans hlimits
  directory {q} hq hne := by
    cases q with
    | nil => exact absurd rfl hne
    | cons first q =>
      obtain ⟨rfl, hrest⟩ := List.cons_prefix_cons.mp hq
      -- the first directory is not touched when those below it are made
      by_cases hlast : q = []
      · subst hlast
        rw [h.same, hmiddle, if_pos rfl]
        intro q _ hne heq
        simp [hne] at heq
      · rw [List.append_cons]
        exact h.directory hrest hlast
  same {path} hpath := by
    have hfirst : above ++ [name] ≠ path := (hpath [name] (by simp) (by simp)).symm
    rw [h.same, hmiddle, if_neg hfirst]
    intro q hq _
    rw [List.append_assoc]
    exact hpath (name :: q) (by simpa using hq) (by simp)

theorem made_of_makeFrom (h : t.makeFrom above rest = (.ok (), t')) : Made t t' above rest := by
  induction rest generalizing t above with
  | nil =>
    cases h
    exact {
      limits := rfl
      directory := fun hq hne => absurd (List.prefix_nil.mp hq) hne
      same := fun _ => rfl }
  | cons name rest ih =>
    rw [makeFrom] at h
    split at h
    · cases h
    · split at h
      · rename_i hentry
        -- the directory is there already, or it is made
        refine (ih h).cons rfl fun path => ?_
        by_cases hpath : above ++ [name] = path
        · rw [if_pos hpath, ← hpath, hentry]
        · rw [if_neg hpath]
      · cases h
      · have hmade := ih h
        exact hmade.cons rfl fun path => Table.get?_insert t.entries (above ++ [name]) path .directory

/-- Directories can be made if there is no file where they should be. -/
theorem makeFrom_ok (hnames : ∀ name ∈ rest, t.nameTooLong name = false)
    (hclear : ∀ q, q <+: rest → q ≠ [] → ∀ data, t.entries.get? (above ++ q) ≠ some (.file data)) :
    ∃ t', t.makeFrom above rest = (.ok (), t') := by
  induction rest generalizing t above with
  | nil => exact ⟨t, rfl⟩
  | cons name rest ih =>
    rw [makeFrom, if_neg (by simp [hnames name (by simp)])]
    have hmore (q : Path) (hq : q <+: rest) (data : Bytes) :
        t.entries.get? (above ++ [name] ++ q) ≠ some (.file data) := by
      rw [List.append_assoc]
      exact hclear (name :: q) (by simpa using hq) (by simp) data
    cases hentry : t.entries.get? (above ++ [name]) with
    | none =>
      -- making the directory puts nothing below it
      refine ih (fun other h => hnames other (by simp [h])) fun q hq hne data => ?_
      rw [insert, Table.get?_insert, if_neg (by simpa using Ne.symm hne)]
      exact hmore q hq data
    | some entry =>
      cases entry with
      | file data => exact absurd hentry (hclear [name] (by simp) (by simp) data)
      | directory => exact ih (fun other h => hnames other (by simp [h])) fun q hq _ => hmore q hq

/-! ### Writing files -/

/-- A file can be written where no directory is, if there is no other file on the way. -/
theorem write_apply (hpath : path ≠ []) (hadmits : t.Admits path)
    (hclear : ∀ q, q <+: path → q ≠ path → q ≠ [] → ∀ data, t.entries.get? q ≠ some (.file data))
    (hfree : t.entries.get? path ≠ some .directory) (data : Bytes) :
    ∃ made, Made t made [] path.dropLast
      ∧ t.write path data = (.ok (), made.insert path (.file data)) := by
  have habove : path.dropLast <+: path := List.dropLast_prefix path
  have hclear' (q : Path) (hq : q <+: path.dropLast) (hne : q ≠ []) (data : Bytes) :
      t.entries.get? q ≠ some (.file data) := by
    obtain ⟨hq, hproper⟩ := (prefix_dropLast_iff hpath).mp hq
    exact hclear q hq hproper hne data
  obtain ⟨made, hmake⟩ : ∃ made, t.makeFrom [] path.dropLast = (.ok (), made) :=
    makeFrom_ok (fun _ => (hadmits.parent habove).name) hclear'
  have hmade := made_of_makeFrom hmake
  -- the directories that are made are above the file
  have hsame : made.entries.get? path = t.entries.get? path :=
    hmade.same fun q hq _ heq => ((prefix_dropLast_iff hpath).mp hq).2 heq.symm
  have hdirectory : t.makeDirectory path.dropLast = (.ok (), made) := by
    rw [makeDirectory, if_neg (by simp [(hadmits.parent habove).whole]), hmake]
  refine ⟨made, hmade, ?_⟩
  rw [write, hdirectory]
  dsimp only
  have hfind := find_cases hpath (hadmits.of_limits hmade.limits) fun q hq hproper hne data => by
    have hq : made.entries.get? q = some .directory :=
      hmade.directory ((prefix_dropLast_iff hpath).mpr ⟨hq, hproper⟩) hne
    rw [hq]
    simp
  -- at the path there is a file or nothing; both are replaced
  rcases hfind with ⟨entry, hentry, hfind⟩ | ⟨_, -, -, -, hfind⟩
  · rw [hsame] at hentry
    cases entry with
    | directory => exact absurd hentry hfree
    | file _ => rw [hfind]
  · rw [hfind]

end FileTree

end Acme.Storage
