import Acme.Proofs.Storage.Calls
import Acme.Proofs.Storage.Files

/-!
# Storages in directories and in memory

A storage in an empty directory answers all calls like a storage in memory (`answers_openAt`), as long as
no path that is used goes through another one and the file system takes all of them.

`FileStore.Keeps` is what a directory has to do with the files that it should keep. What a removed file
leaves behind are directories above paths that are used, and these stand in nobody's way.
-/

namespace Acme.Storage

/-- Paths of files of which none has to be a directory for another. -/
structure Separate (used : Path → Prop) : Prop where
  ne_nil {path : Path} (h : used path) : path ≠ []
  eq_of_below {path other : Path} (h : used path) (hother : used other) (hbelow : path <+: other) :
    path = other

namespace FileStore

/-- A storage keeps files at some of the paths that are used. -/
structure Keeps (used : Path → Prop) (s : FileStore) (files : Files) : Prop where
  admits {path : Path} (h : used path) : s.tree.Admits (s.top ++ path)
  top {q : Path} (hq : q <+: s.top) (hne : q ≠ []) : s.tree.entries.get? q = some .directory
  file {path : Path} {data : Bytes} (hne : path ≠ []) :
    s.tree.entries.get? (s.top ++ path) = some (.file data) ↔ files path = some data
  known {path : Path} {data : Bytes} (h : files path = some data) : used path
  above {path q : Path} {data : Bytes} (h : files path = some data) (hq : q <+: path)
    (hproper : q ≠ path) (hne : q ≠ []) : s.tree.entries.get? (s.top ++ q) = some .directory
  directory {path : Path} (hne : path ≠ [])
    (h : s.tree.entries.get? (s.top ++ path) = some .directory) :
    ∃ other, used other ∧ path <+: other ∧ path ≠ other

variable {used : Path → Prop} {s : FileStore} {files : Files} {path : Path}

/-- No file is on the way to a path that is used. -/
theorem Keeps.clear (h : Keeps used s files) (hsep : Separate used) (hused : used path) {q : Path}
    (hq : q <+: s.top ++ path) (hproper : q ≠ s.top ++ path) (hne : q ≠ []) (data : Bytes) :
    s.tree.entries.get? q ≠ some (.file data) := by
  rcases prefix_append_cases hq with hq | ⟨r, hr, hrest, rfl⟩
  · rw [h.top hq hne]
    simp
  · intro hfile
    have hr := hsep.eq_of_below (h.known ((h.file hr).mp hfile)) hused hrest
    exact hproper (by rw [hr])

theorem Keeps.not_directory (h : Keeps used s files) (hsep : Separate used) (hused : used path) :
    s.tree.entries.get? (s.top ++ path) ≠ some .directory := by
  intro hdirectory
  obtain ⟨other, hother, hbelow, hne⟩ := h.directory (hsep.ne_nil hused) hdirectory
  exact hne (hsep.eq_of_below hused hother hbelow)

/-- Above a file there is no path that is used. -/
theorem Keeps.ne_above (h : Keeps used s files) (hsep : Separate used) (hused : used path) {q r : Path}
    {data : Bytes} (hfile : files r = some data) (hq : q <+: r) (hproper : q ≠ r) : path ≠ q := by
  rintro rfl
  exact hproper (hsep.eq_of_below hused (h.known hfile) hq)

/-- A path that is used leads to its file, or nowhere. -/
theorem Keeps.find (h : Keeps used s files) (hsep : Separate used) (hused : used path) :
    s.tree.find (s.top ++ path) = match files path with
      | some data => .ok (.file data)
      | none => .error .missing := by
  have hne := hsep.ne_nil hused
  have hwhole : s.top ++ path ≠ [] := by simp [hne]
  have hfind := FileTree.find_cases hwhole (h.admits hused)
    fun q hq hproper hq0 => h.clear hsep hused hq hproper hq0
  rcases hfind with ⟨entry, hentry, hfind⟩ | ⟨q, hq, hq0, hmissing, hfind⟩
  · cases entry with
    | directory => exact absurd hentry (h.not_directory hsep hused)
    | file data => rw [hfind, (h.file hne).mp hentry]
  · cases hfile : files path with
    | none => exact hfind
    | some data =>
      -- there is nothing at some place on the way, but a file has directories above it
      have hentry : s.tree.entries.get? q ≠ none := by
        rcases prefix_append_cases hq with hq | ⟨r, hr, hrest, rfl⟩
        · simp [h.top hq hq0]
        · by_cases hlast : r = path
          · simp [hlast, (h.file hne).mpr hfile]
          · simp [h.above hfile hrest hlast hr]
      exact absurd hmissing hentry

/-! ### Writing and removing -/

theorem top_ne_append {q top : Path} (hq : q <+: top) (hpath : path ≠ []) : top ++ path ≠ q := by
  rintro rfl
  have hlength := hq.length_le
  rw [List.length_append] at hlength
  exact hpath (List.length_eq_zero_iff.mp (by omega))

/-- The directories that are made below the top are those above a path. -/
theorem get?_made {tree made : FileTree} {top path r : Path} (hpath : path ≠ []) (hr : r ≠ [])
    (hmade : tree.Made made [] (top ++ path).dropLast) :
    made.entries.get? (top ++ r)
      = if r <+: path ∧ r ≠ path then some .directory else tree.entries.get? (top ++ r) := by
  have hne : top ++ path ≠ [] := by simp [hpath]
  split
  · rename_i h
    refine hmade.directory (q := top ++ r) ((prefix_dropLast_iff hne).mpr ⟨?_, ?_⟩) (by simp [hr])
    · exact (List.prefix_append_right_inj top).mpr h.1
    · simpa using h.2
  · rename_i h
    refine hmade.same fun q hq _ => ?_
    rintro rfl
    obtain ⟨hq, hproper⟩ := (prefix_dropLast_iff hne).mp hq
    exact h ⟨(List.prefix_append_right_inj top).mp hq, by simpa using hproper⟩

theorem Keeps.write (h : Keeps used s files) (hsep : Separate used) (hused : used path) (data : Bytes) :
    ∃ tree, s.tree.write (s.top ++ path) data = (.ok (), tree)
      ∧ Keeps used { s with tree } (Function.update files path (some data)) := by
  have hpath := hsep.ne_nil hused
  have hwhole : s.top ++ path ≠ [] := by simp [hpath]
  obtain ⟨made, hmade, hwrite⟩ := FileTree.write_apply hwhole (h.admits hused)
    (fun q hq hproper hne => h.clear hsep hused hq hproper hne)
    (h.not_directory hsep hused) data
  refine ⟨_, hwrite, ?_⟩
  -- what is at a path afterwards: the file, directories above it, or what was there before
  have hget (r : Path) (hr : r ≠ []) :
      (made.insert (s.top ++ path) (.file data)).entries.get? (s.top ++ r)
        = if path = r then some (.file data)
          else if r <+: path ∧ r ≠ path then some .directory
          else s.tree.entries.get? (s.top ++ r) := by
    rw [FileTree.insert, Table.get?_insert, get?_made hpath hr hmade]
    simp only [List.append_cancel_left_eq]
  exact {
    admits := fun hused => (h.admits hused).of_limits hmade.limits
    top := fun {q} hq hne => by
      have hproper := top_ne_append hq hpath
      rw [FileTree.insert, Table.get?_insert, if_neg hproper]
      have habove : q <+: (s.top ++ path).dropLast :=
        (prefix_dropLast_iff hwhole).mpr ⟨hq.trans (List.prefix_append _ _), hproper.symm⟩
      exact hmade.directory habove hne
    file := fun {r other} hr => by
      rw [hget r hr, Function.update_apply]
      by_cases heq : path = r
      · rw [if_pos heq, if_pos heq.symm]
        simp
      · rw [if_neg heq, if_neg (Ne.symm heq)]
        split
        · rename_i habove
          constructor
          · intro hfile
            cases hfile
          · intro hfile
            exact absurd (hsep.eq_of_below (h.known hfile) hused habove.1) habove.2
        · exact h.file hr
    known := fun {r other} hfile => by
      rw [Function.update_apply] at hfile
      split at hfile
      · rename_i heq
        rwa [heq]
      · exact h.known hfile
    above := fun {r q other} hfile hq hproper hne => by
      rw [Function.update_apply] at hfile
      rw [hget q hne]
      -- above the new file there are directories now; above any other the new file is not
      by_cases heq : r = path
      · subst heq
        rw [if_neg (Ne.symm hproper), if_pos ⟨hq, hproper⟩]
      · rw [if_neg heq] at hfile
        rw [if_neg (h.ne_above hsep hused hfile hq hproper)]
        split
        · rfl
        · exact h.above hfile hq hproper hne
    directory := fun {r} hr hdirectory => by
      rw [hget r hr] at hdirectory
      split at hdirectory
      · cases hdirectory
      · split at hdirectory
        · rename_i habove
          exact ⟨path, hused, habove⟩
        · exact h.directory hr hdirectory }

theorem Keeps.remove (h : Keeps used s files) (hsep : Separate used) (hused : used path) :
    Keeps used { s with tree := s.tree.erase (s.top ++ path) } (Function.update files path none) := by
  have hpath := hsep.ne_nil hused
  -- only the file is taken away, and the directories above it stay
  have hget (r : Path) : (s.tree.erase (s.top ++ path)).entries.get? (s.top ++ r)
      = if path = r then none else s.tree.entries.get? (s.top ++ r) := by
    rw [FileTree.erase, Table.get?_erase]
    simp only [List.append_cancel_left_eq]
  exact {
    admits := fun hused => FileTree.Admits.of_limits (t := s.tree) rfl (h.admits hused)
    top := fun {q} hq hne => by
      rw [FileTree.erase, Table.get?_erase, if_neg (top_ne_append hq hpath)]
      exact h.top hq hne
    file := fun {r data} hr => by
      rw [hget r, Function.update_apply]
      by_cases heq : path = r
      · rw [if_pos heq, if_pos heq.symm]
        simp
      · rw [if_neg heq, if_neg (Ne.symm heq)]
        exact h.file hr
    known := fun {r data} hfile => by
      rw [Function.update_apply] at hfile
      split at hfile
      · cases hfile
      · exact h.known hfile
    above := fun {r q data} hfile hq hproper hne => by
      rw [Function.update_apply] at hfile
      split at hfile
      · cases hfile
      · rw [hget q, if_neg (h.ne_above hsep hused hfile hq hproper)]
        exact h.above hfile hq hproper hne
    directory := fun {r} hr hdirectory => by
      rw [hget r] at hdirectory
      split at hdirectory
      · cases hdirectory
      · exact h.directory hr hdirectory }

/-! ### Calls -/

variable {key : String}

theorem get_apply (s : FileStore) : (get : Storing FileStore FileStore) s = (.ok s, s) :=
  Stateful.get_apply s

theorem Keeps.remove_apply (h : Keeps used s files) (hsep : Separate used) (hused : used path)
    (hkey : Path.ofKey key = .ok path) :
    ∃ t, (Storage.remove key : Storing FileStore Unit) s = (.ok (), t)
      ∧ Keeps used t (Function.update files path none) := by
  have hfind := h.find hsep hused
  cases hfile : files path with
  | some data =>
    refine ⟨_, ?_, h.remove hsep hused⟩
    refine (Stateful.bind_ok (path_ok s hkey)).trans ((Stateful.bind_ok (get_apply s)).trans ?_)
    rw [hfind, hfile]
    rfl
  | none =>
    -- there is nothing to remove
    refine ⟨s, ?_, ?_⟩
    · refine (Stateful.bind_ok (path_ok s hkey)).trans ((Stateful.bind_ok (get_apply s)).trans ?_)
      rw [hfind, hfile]
      rfl
    · rw [← hfile, Function.update_eq_self]
      exact h

theorem Keeps.right (h : Keeps used s files) (hsep : Separate used) (hused : used path)
    (hkey : Path.ofKey key = .ok path) : Right (Keeps used) s files key path where
  read := by
    refine (Stateful.bind_ok (path_ok s hkey)).trans ((Stateful.bind_ok (get_apply s)).trans ?_)
    rw [h.find hsep hused]
    cases files path <;> rfl
  write data := by
    obtain ⟨tree, hwrite, hkeeps⟩ := h.write hsep hused data
    refine ⟨{ s with tree }, ?_, hkeeps⟩
    refine (Stateful.bind_ok (path_ok s hkey)).trans ((Stateful.bind_ok (get_apply s)).trans ?_)
    rw [hwrite]
    rfl
  remove := h.remove_apply hsep hused hkey
  contains := by
    refine (Stateful.bind_ok (path_ok s hkey)).trans ((Stateful.bind_ok (get_apply s)).trans ?_)
    rw [h.find hsep hused]
    cases files path <;> rfl

/-- A storage in a directory gives the right answers and keeps what it should. -/
theorem Keeps.ask (h : Keeps used s files) (hsep : Separate used) {c : Call}
    (hc : ∀ path, Path.ofKey c.key = .ok path → used path) :
    (c.ask s).1 = c.answer files ∧ Keeps used (c.ask s).2 (c.after files) := by
  cases hkey : Path.ofKey c.key with
  | ok path => exact ask_of_right h hkey (h.right hsep (hc path hkey) hkey)
  | error fault =>
    apply ask_of_error h hkey
    cases c <;> exact Stateful.map_error (Stateful.bind_error (path_error s hkey))

/-! ### Runs -/

/-- A storage that was opened in an empty directory keeps nothing. -/
theorem keeps_openAt {tree : FileTree} {top : Path} (hopen : openAt tree top = .ok s)
    (hempty : ∀ path ≠ [], tree.entries.get? (top ++ path) = none)
    (hadmits : ∀ path, used path → tree.Admits (top ++ path)) : Keeps used s fun _ => none := by
  rw [openAt, FileTree.makeDirectory] at hopen
  split at hopen
  · rename_i made hmake
    cases hopen
    split at hmake
    · cases hmake
    · have hmade := FileTree.made_of_makeFrom hmake
      -- only the directory itself and those above it were made
      have hnothing (path : Path) (hne : path ≠ []) : made.entries.get? (top ++ path) = none := by
        rw [hmade.same fun q hq _ => ?_, hempty path hne]
        exact top_ne_append hq hne
      exact {
        admits := fun hused => (hadmits _ hused).of_limits hmade.limits
        top := fun hq hne => hmade.directory hq hne
        file := fun hne => by simp [hnothing _ hne]
        known := fun h => by cases h
        above := fun h => by cases h
        directory := fun hne h => by simp [hnothing _ hne] at h }
  · cases hopen

end FileStore

/-- A path that a key in some calls means. -/
def Uses (calls : List Call) (path : Path) : Prop := ∃ c ∈ calls, Path.ofKey c.key = .ok path

theorem ofKey_ne_nil {key : String} {path : Path} (h : Path.ofKey key = .ok path) : path ≠ [] := by
  rintro rfl
  simp only [Path.ofKey] at h
  repeat' split at h
  all_goals cases h

/-- A storage in an empty directory and one in memory give the same answers, of which those to reads
are what was last written. -/
theorem answers_openAt {tree : FileTree} {top : Path} {s : FileStore}
    (hopen : FileStore.openAt tree top = .ok s)
    (hempty : ∀ path ≠ [], tree.entries.get? (top ++ path) = none) {calls : List Call}
    (hseparate : ∀ path other, Uses calls path → Uses calls other → path <+: other → path = other)
    (hadmits : ∀ path, Uses calls path → tree.Admits (top ++ path)) :
    answers calls s = answers calls MemoryStore.empty
      ∧ ∀ before key rest path, calls = before ++ .read key :: rest → Path.ofKey key = .ok path →
        ∃ a, (answers calls s)[before.length]? = some a
          ∧ (∀ data, a = .ok (.octets data) ↔ LastWritten before path data)
          ∧ ((∀ data, ¬ LastWritten before path data) → a = .error (.notFound key)) := by
  have hsep : Separate (Uses calls) := {
    ne_nil := fun ⟨_, _, hkey⟩ => ofKey_ne_nil hkey
    eq_of_below := fun h hother hbelow => hseparate _ _ h hother hbelow }
  -- both answer as the right answers do, so they answer alike
  have hfiles : answers calls s = rightAnswers calls fun _ => none :=
    answers_eq (fun c hc _ _ hkeeps => hkeeps.ask hsep fun _ hkey => ⟨c, hc, hkey⟩)
      (FileStore.keeps_openAt hopen hempty hadmits)
  have hmemory : answers calls MemoryStore.empty = rightAnswers calls fun _ => none :=
    answers_eq (K := MemoryStore.Holds) (fun c _ _ _ hholds => hholds.ask c) rfl
  refine ⟨hfiles.trans hmemory.symm, ?_⟩
  intro before key rest path hcalls hkey
  rw [hfiles, hcalls]
  exact read_rightAnswers hkey

/-- Calls that name a file in several ways, and a key that leaves the storage. -/
def aliasCalls : List Call :=
  [.write "a/b" [1], .write "./c/../a//b" [2], .read "/a/b", .remove "a/./b", .read "a/b",
    .contains "c/..", .contains "../c", .contains "c"]

/-- A directory of a file system without limits. -/
def roomyStore : FileStore :=
  ⟨⟨⟨[(["base", "store"], .directory), (["base"], .directory)]⟩, none⟩, ["base", "store"]⟩

theorem answers_aliasCalls :
    answers aliasCalls roomyStore = answers aliasCalls MemoryStore.empty
      ∧ answers aliasCalls roomyStore = [.ok .done, .ok .done, .ok (.octets [2]), .ok .done,
        .error (.notFound "a/b"), .error (.invalidKey "c/.." .namesNothing),
        .error (.invalidKey "../c" .leavesTop), .ok (.found false)] := by
  have hopen : FileStore.openAt ⟨.empty, none⟩ ["base", "store"] = .ok roomyStore := by decide +kernel
  -- four texts are used as keys, two of which mean a path
  have hkeys : ∀ c ∈ aliasCalls, Path.ofKey c.key = .ok ["a", "b"] ∨ Path.ofKey c.key = .ok ["c"]
      ∨ Path.ofKey c.key = .error .leavesTop ∨ Path.ofKey c.key = .error .namesNothing := by
    decide +kernel
  have huses (path : Path) (h : Uses aliasCalls path) : path = ["a", "b"] ∨ path = ["c"] := by
    obtain ⟨c, hc, hkey⟩ := h
    have hpath := hkeys c hc
    rw [hkey] at hpath
    simpa using hpath
  have hseparate (path other : Path) (h : Uses aliasCalls path) (hother : Uses aliasCalls other)
      (hbelow : path <+: other) : path = other := by
    rcases huses path h with rfl | rfl <;> rcases huses other hother with rfl | rfl <;>
      revert hbelow <;> decide
  have hagree := (answers_openAt hopen (fun _ _ => rfl) hseparate
    fun path _ => FileTree.admits_of_none rfl _).1
  refine ⟨hagree, hagree.trans ?_⟩
  decide +kernel

end Acme.Storage
