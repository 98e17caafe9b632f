import Acme.Proofs.Storage.Agreement
import Acme.Proofs.Storage.Resolution

/-!
# Keys do not leave their storage

Whatever keys a storage in a directory is asked about, it leaves everything alone that is not strictly below
that directory (`FileStore.confined_run`), and the files that it reads are below it
(`FileStore.below_of_read`). Two keys are the same file exactly if they mean the same path
(`MemoryStore.shares_iff`, `FileStore.shares_iff`). Together with the meaning of keys this is
`keys_confined`.
-/

namespace Acme

namespace Storage

/-- Strictly below a directory. -/
def Below (top path : Path) : Prop := ∃ rest, rest ≠ [] ∧ path = top ++ rest

theorem not_below_of_leads {top path : Path} (h : path <+: top) : ¬ Below top path := by
  rintro ⟨rest, hrest, rfl⟩
  have hlength := h.length_le
  rw [List.length_append] at hlength
  exact hrest (List.length_eq_zero_iff.mp (by omega))

/-! ### What changes in a tree -/

namespace FileTree

variable {t : FileTree} {above rest path q : Path} {data : Bytes}

/-- Directories are made on the way and where nothing is. -/
theorem of_makeFrom_changes
    (h : (t.makeFrom above rest).2.entries.get? path ≠ t.entries.get? path) :
    (∃ r, r ≠ [] ∧ r <+: rest ∧ path = above ++ r) ∧ t.entries.get? path = none := by
  induction rest generalizing t above with
  | nil => exact absurd rfl h
  | cons name rest ih =>
    have hlonger : (∃ r, r ≠ [] ∧ r <+: rest ∧ path = above ++ [name] ++ r) →
        ∃ r, r ≠ [] ∧ r <+: name :: rest ∧ path = above ++ r := by
      rintro ⟨r, -, hr, rfl⟩
      exact ⟨name :: r, by simp, by simpa using hr, by simp⟩
    rw [makeFrom] at h
    split at h
    · exact absurd rfl h
    · split at h
      · obtain ⟨hway, hnone⟩ := ih h
        exact ⟨hlonger hway, hnone⟩
      · exact absurd rfl h
      · rename_i hnothing
        by_cases hpath : path = above ++ [name]
        · exact ⟨⟨[name], by simp, by simp, hpath⟩, hpath ▸ hnothing⟩
        · -- the directory that was made here makes no difference at the path
          have hsame : (t.insert (above ++ [name]) .directory).entries.get? path
              = t.entries.get? path := by
            rw [insert, Table.get?_insert, if_neg (Ne.symm hpath)]
          obtain ⟨hway, hnone⟩ := ih (hsame.symm ▸ h)
          exact ⟨hlonger hway, hsame ▸ hnone⟩

theorem of_makeDirectory_changes
    (h : (t.makeDirectory path).2.entries.get? q ≠ t.entries.get? q) :
    (q ≠ [] ∧ q <+: path) ∧ t.entries.get? q = none := by
  rw [makeDirectory] at h
  split at h
  · exact absurd rfl h
  · obtain ⟨⟨r, hne, hr, rfl⟩, hnone⟩ := of_makeFrom_changes h
    exact ⟨⟨hne, hr⟩, hnone⟩

/-- A file is written at its path, after directories were made on the way to it. -/
theorem of_write_changes (h : (t.write path data).2.entries.get? q ≠ t.entries.get? q) :
    q = path ∨ (q ≠ [] ∧ q <+: path) ∧ t.entries.get? q = none := by
  by_cases hpath : q = path
  · exact .inl hpath
  · have hmade : (t.makeDirectory path.dropLast).2.entries.get? q ≠ t.entries.get? q := by
      rw [write] at h
      split at h
      · rename_i hmake
        rwa [hmake]
      · rename_i hmake
        rw [hmake]
        split at h
        · rwa [insert, Table.get?_insert, if_neg (Ne.symm hpath)] at h
        · rwa [insert, Table.get?_insert, if_neg (Ne.symm hpath)] at h
        · exact h
        · exact h
    obtain ⟨⟨hne, hq⟩, hnone⟩ := of_makeDirectory_changes hmade
    exact .inr ⟨⟨hne, hq.trans (List.dropLast_prefix path)⟩, hnone⟩

/-! ### What is found in a tree -/

theorem get?_of_findFrom {here entry : FileEntry} (hrest : rest ≠ [])
    (h : t.findFrom above here rest = .ok entry) : t.entries.get? (above ++ rest) = some entry := by
  induction rest generalizing above here with
  | nil => exact absurd rfl hrest
  | cons name rest ih =>
    rw [findFrom] at h
    split at h
    · cases h
    · split at h
      · cases h
      · rename_i found hfound
        by_cases hlast : rest = []
        · subst hlast
          cases h
          exact hfound
        · rw [List.append_cons]
          exact ih hlast h

theorem get?_of_find {entry : FileEntry} (hpath : path ≠ []) (h : t.find path = .ok entry) :
    t.entries.get? path = some entry := by
  rw [find] at h
  split at h
  · cases h
  · exact get?_of_findFrom hpath h

/-- A file that was put where it can be is found there. -/
theorem findFrom_insert (hrest : rest ≠ []) (h : t.findFrom above .directory rest ≠ .error .unusable)
    (hdirectory : ∀ q, q <+: rest → q ≠ rest → q ≠ [] →
      t.entries.get? (above ++ q) = some .directory) :
    (t.insert (above ++ rest) (.file data)).findFrom above .directory rest = .ok (.file data) := by
  induction rest generalizing above with
  | nil => exact absurd rfl hrest
  | cons name rest ih =>
    rw [findFrom] at h
    rw [findFrom]
    by_cases hlong : t.nameTooLong name
    · simp [hlong] at h
    · -- the limits of the tree are the same
      have hname : ¬ (t.insert (above ++ name :: rest) (.file data)).nameTooLong name := hlong
      rw [if_neg (by simp [hname]), insert, Table.get?_insert]
      by_cases hlast : rest = []
      · subst hlast
        rw [if_pos rfl]
        rfl
      · have hhere : t.entries.get? (above ++ [name]) = some .directory :=
          hdirectory [name] (by simp) (by simpa using Ne.symm hlast) (by simp)
        rw [if_neg (by simpa using hlast), hhere]
        rw [if_neg (by simp [hlong]), hhere] at h
        have hmore := ih hlast h fun q hq hproper _ => by
          rw [List.append_assoc]
          exact hdirectory (name :: q) (by simpa using hq) (by simpa using hproper) (by simp)
        rw [List.append_assoc] at hmore
        exact hmore

/-- A file that has been written is found. -/
theorem find_of_write {t' : FileTree} (hpath : path ≠ []) (h : t.write path data = (.ok (), t')) :
    t'.find path = .ok (.file data) := by
  rw [write] at h
  split at h
  · cases h
  · rename_i made hmake
    rw [makeDirectory] at hmake
    split at hmake
    · cases hmake
    · have hmade := made_of_makeFrom hmake
      -- writing ends well if there is a file already, or nothing
      obtain ⟨rfl, husable⟩ : t' = made.insert path (.file data)
          ∧ made.find path ≠ .error .unusable := by
        split at h
        · rename_i hfind
          cases h
          exact ⟨rfl, by simp [hfind]⟩
        · rename_i hfind
          cases h
          exact ⟨rfl, by simp [hfind]⟩
        · cases h
        · cases h
      rw [find] at husable
      split at husable
      · exact absurd rfl husable
      · rename_i hshort
        refine (if_neg hshort).trans ?_
        exact findFrom_insert hpath husable fun q hq hproper hne =>
          hmade.directory ((prefix_dropLast_iff hpath).mpr ⟨hq, hproper⟩) hne

end FileTree

/-! ### Calls of storages in directories -/

namespace FileStore

variable {s t : FileStore} {path : Path} {key : String}

/-- The directory of a storage is there. -/
def Opened (s : FileStore) : Prop :=
  ∀ q, q <+: s.top → q ≠ [] → s.tree.entries.get? q = some .directory

/-- A later state of a storage, in which everything is as before that is not below its directory. -/
structure Confined (s t : FileStore) : Prop where
  top : t.top = s.top
  outside : ∀ path, ¬ Below s.top path → t.tree.entries.get? path = s.tree.entries.get? path

theorem Confined.refl (s : FileStore) : Confined s s := ⟨rfl, fun _ _ => rfl⟩

theorem Confined.trans {u : FileStore} (h : Confined s t) (h' : Confined t u) : Confined s u where
  top := h'.top.trans h.top
  outside path hpath := (h'.outside path (h.top.symm ▸ hpath)).trans (h.outside path hpath)

theorem Opened.of_confined (h : s.Opened) (hconfined : Confined s t) : t.Opened := by
  intro q hq hne
  rw [hconfined.top] at hq
  rw [hconfined.outside q (not_below_of_leads hq)]
  exact h q hq hne

theorem opened_openAt {tree : FileTree} {top : Path} (h : openAt tree top = .ok s) : s.Opened := by
  rw [openAt, FileTree.makeDirectory] at h
  split at h
  · rename_i made hmake
    cases h
    split at hmake
    · cases hmake
    · exact fun q hq hne => (FileTree.made_of_makeFrom hmake).directory hq hne
  · cases h

theorem top_openAt {tree : FileTree} {top : Path} (h : openAt tree top = .ok s) : s.top = top := by
  rw [openAt] at h
  split at h
  · cases h
    rfl
  · cases h

/-- Writing at a path below the directory changes nothing else than what is below it. -/
theorem confined_write (h : s.Opened) (hpath : path ≠ []) (data : Bytes) :
    Confined s { s with tree := (s.tree.write (s.top ++ path) data).2 } where
  top := rfl
  outside q hq := by
    by_contra hchanged
    rcases FileTree.of_write_changes hchanged with rfl | ⟨⟨hne, hway⟩, hnone⟩
    · exact hq ⟨path, hpath, rfl⟩
    · rcases prefix_append_cases hway with htop | ⟨r, hr, -, rfl⟩
      · rw [h q htop hne] at hnone
        cases hnone
      · exact hq ⟨r, hr, rfl⟩

theorem confined_erase (hpath : path ≠ []) :
    Confined s { s with tree := s.tree.erase (s.top ++ path) } where
  top := rfl
  outside q hq := by
    rw [FileTree.erase, Table.get?_erase, if_neg]
    rintro rfl
    exact hq ⟨path, hpath, rfl⟩

theorem read_apply (key : String) (hkey : Path.ofKey key = .ok path) :
    (Storage.read key : Storing FileStore Bytes) s
      = (match s.tree.find (s.top ++ path) with
        | .ok (.file data) => .ok data
        | .error .missing => .error (.notFound key)
        | .ok .directory | .error .unusable => .error .io, s) := by
  refine (Stateful.bind_ok (path_ok s hkey)).trans ((Stateful.bind_ok (get_apply s)).trans ?_)
  split <;> rename_i hfind <;> rw [hfind] <;> rfl

theorem write_apply (key : String) (hkey : Path.ofKey key = .ok path) (data : Bytes) :
    (Storage.write key data : Storing FileStore Unit) s
      = ((s.tree.write (s.top ++ path) data).1.mapError fun _ => .io,
        { s with tree := (s.tree.write (s.top ++ path) data).2 }) := by
  refine (Stateful.bind_ok (path_ok s hkey)).trans ((Stateful.bind_ok (get_apply s)).trans ?_)
  rcases hwrite : s.tree.write (s.top ++ path) data with ⟨_ | _, tree⟩ <;> rfl

theorem remove_apply (key : String) (hkey : Path.ofKey key = .ok path) :
    (Storage.remove key : Storing FileStore Unit) s
      = match s.tree.find (s.top ++ path) with
        | .ok (.file _) => (.ok (), { s with tree := s.tree.erase (s.top ++ path) })
        | .error .missing => (.ok (), s)
        | .ok .directory | .error .unusable => (.error .io, s) := by
  refine (Stateful.bind_ok (path_ok s hkey)).trans ((Stateful.bind_ok (get_apply s)).trans ?_)
  split <;> rename_i hfind <;> rw [hfind] <;> rfl

theorem contains_apply (key : String) (hkey : Path.ofKey key = .ok path) :
    (Storage.contains key : Storing FileStore Bool) s
      = (.ok (match s.tree.find (s.top ++ path) with
        | .ok (.file _) => true
        | _ => false), s) := by
  refine (Stateful.bind_ok (path_ok s hkey)).trans ((Stateful.bind_ok (get_apply s)).trans ?_)
  split <;> simp [*, Stateful.pure_apply]

theorem map_snd {α β : Type} (f : α → β) (x : Storing FileStore α) : ((f <$> x) s).2 = (x s).2 := by
  rw [map_eq_pure_bind, Stateful.bind_apply]
  rcases x s with ⟨_ | _, t⟩ <;> rfl

/-- A call changes nothing but what is below the directory. -/
theorem confined_ask (h : s.Opened) (c : Call) : Confined s (c.ask s).2 := by
  cases hkey : Path.ofKey c.key with
  | error fault =>
    -- a key that means no path is refused before the storage is looked at
    have hrefused : c.ask s = (.error (.invalidKey c.key fault), s) := by
      cases c <;> exact Stateful.map_error (Stateful.bind_error (path_error s hkey))
    rw [hrefused]
    exact .refl s
  | ok path =>
    have hpath := ofKey_ne_nil hkey
    cases c with
    | read key =>
      rw [Call.ask, map_snd, read_apply key hkey]
      exact .refl s
    | write key data =>
      rw [Call.ask, map_snd, write_apply key hkey]
      exact confined_write h hpath data
    | remove key =>
      rw [Call.ask, map_snd, remove_apply key hkey]
      split
      · exact confined_erase hpath
      · exact .refl s
      · exact .refl s
      · exact .refl s
    | contains key =>
      rw [Call.ask, map_snd, contains_apply key hkey]
      exact .refl s

/-- The state after some calls. -/
def run (s : FileStore) (calls : List Call) : FileStore := calls.foldl (fun s c => (c.ask s).2) s

theorem confined_run (h : s.Opened) (calls : List Call) : Confined s (s.run calls) := by
  induction calls generalizing s with
  | nil => exact .refl s
  | cons c calls ih =>
    have hfirst := confined_ask h c
    exact hfirst.trans (ih (h.of_confined hfirst))

/-- What is read comes from below the directory. -/
theorem below_of_read {data : Bytes} (h : ((Storage.read key : Storing FileStore Bytes) s).1 = .ok data) :
    ∃ path, Path.ofKey key = .ok path ∧ Below s.top (s.top ++ path)
      ∧ s.tree.entries.get? (s.top ++ path) = some (.file data) := by
  cases hkey : Path.ofKey key with
  | error fault =>
    have hrefused : (Storage.read key : Storing FileStore Bytes) s = _ :=
      Stateful.bind_error (path_error s hkey)
    rw [hrefused] at h
    cases h
  | ok path =>
    -- a path is never empty, so what it leads to is below the directory and not the directory itself
    have hpath := ofKey_ne_nil hkey
    rw [read_apply key hkey] at h
    refine ⟨path, rfl, ⟨path, hpath, rfl⟩, ?_⟩
    dsimp only at h
    split at h
    · rename_i found hfind
      cases h
      exact FileTree.get?_of_find (by simp [hpath]) hfind
    · cases h
    · cases h
    · cases h

end FileStore

/-! ### Keys for one file -/

/-- What is written under one key is read under another. -/
def Shares {σ : Type} [Storage σ] (key other : String) (s : σ) : Prop :=
  ∀ data t, (Storage.write key data : Storing σ Unit) s = (.ok (), t) →
    ((Storage.read other : Storing σ Bytes) t).1 = .ok data

end Storage

open Storage

variable {key other : String} {path path' : Path}

/-- In a storage in memory, two keys are the same file exactly if they mean the same path. -/
theorem MemoryStore.shares_iff (hkey : Path.ofKey key = .ok path)
    (hother : Path.ofKey other = .ok path') :
    (∀ s : MemoryStore, Shares key other s) ↔ path = path' := by
  constructor
  · intro h
    by_contra hne
    have hread := h .empty [] _ (write_apply .empty hkey [])
    rw [read_missing _ hother (by simp [empty, hne])] at hread
    cases hread
  · rintro rfl s data t hwrite
    rw [write_apply s hkey] at hwrite
    cases hwrite
    have hfile : (s.files.insert path data).get? path = some data := by simp
    rw [read_apply ⟨s.files.insert path data⟩ hother hfile]

namespace Storage

/-- The top of an empty tree without limits. -/
def FileStore.vast : FileStore := ⟨⟨.empty, none⟩, []⟩

/-- In a storage in a directory, two keys are the same file exactly if they mean the same path. -/
theorem FileStore.shares_iff (hkey : Path.ofKey key = .ok path) (hother : Path.ofKey other = .ok path') :
    (∀ s : FileStore, s.Opened → Shares key other s) ↔ path = path' := by
  have hpath := ofKey_ne_nil hkey
  have hpath' := ofKey_ne_nil hother
  constructor
  · intro h
    by_contra hne
    have hopened : vast.Opened := fun q hq hq0 => absurd (List.prefix_nil.mp hq) hq0
    obtain ⟨made, hmade, hmake⟩ := FileTree.write_apply (t := vast.tree) hpath
      (FileTree.admits_of_none rfl path) (fun _ _ _ _ _ => by simp [vast]) (by simp [vast]) []
    have hwrite : (Storage.write key [] : Storing FileStore Unit) vast
        = (.ok (), ⟨made.insert path (.file []), []⟩) := by
      rw [write_apply key hkey, show vast.top ++ path = path from rfl, hmake]
      rfl
    obtain ⟨_, hsame, -, hfile⟩ := below_of_read (h vast hopened [] _ hwrite)
    cases hother.symm.trans hsame
    -- apart from the file there are only directories
    change (made.insert path (.file [])).entries.get? path' = some (.file []) at hfile
    rw [FileTree.insert, Table.get?_insert, if_neg hne] at hfile
    by_cases hway : path' <+: path.dropLast
    · cases (hmade.directory hway hpath').symm.trans hfile
    · have hnothing : made.entries.get? path' = none :=
        hmade.same fun q hq _ heq => hway (by rw [heq]; exact hq)
      cases hnothing.symm.trans hfile
  · rintro rfl s - data t hwrite
    rw [write_apply key hkey] at hwrite
    rcases htree : s.tree.write (s.top ++ path) data with ⟨_ | _, tree⟩
    · rw [htree] at hwrite
      cases hwrite
    · rw [htree] at hwrite
      cases hwrite
      rw [read_apply _ hother, FileTree.find_of_write (by simp [hpath]) htree]

/-! ### Keys -/

/-- A key is accepted exactly if it is proper, never leads above the top and leads somewhere; it then means
the path that its way resolves to, which consists of plain names and means itself. A storage in a directory
leaves everything alone that is not below the directory, and reads only what is below it. Two keys are the
same file exactly if they mean the same path. -/
theorem keys_confined :
    (∀ key path, Path.ofKey key = .ok path
        ↔ Path.IsProper key ∧ Path.Resolves (Path.way key) path ∧ path ≠ [])
      ∧ (∀ key, (∃ path, Path.ofKey key = .ok path)
        ↔ Path.IsProper key ∧ Path.StaysBelow (Path.way key) ∧ ¬ Path.Resolves (Path.way key) [])
      ∧ (∀ key path, Path.ofKey key = .ok path →
        path ≠ [] ∧ (∀ name ∈ path, Path.IsPlain name) ∧ Path.ofKey path.text = .ok path)
      ∧ (∀ tree top s calls, FileStore.openAt tree top = .ok s →
        FileStore.Confined s (s.run calls)
          ∧ ∀ key data, ((Storage.read key : Storing FileStore Bytes) (s.run calls)).1 = .ok data →
            ∃ path, Path.ofKey key = .ok path ∧ Below top (top ++ path)
              ∧ (s.run calls).tree.entries.get? (top ++ path) = some (.file data))
      ∧ ∀ key other path path', Path.ofKey key = .ok path → Path.ofKey other = .ok path' →
        ((∀ s : MemoryStore, Shares key other s) ↔ path = path')
          ∧ ((∀ s : FileStore, s.Opened → Shares key other s) ↔ path = path') := by
  refine ⟨fun _ _ => Path.ofKey_eq_ok_iff, fun key => ?accepted, fun key path h => ?plain,
    fun tree top s calls hopen => ?confined,
    fun _ _ _ _ hkey hother => ⟨MemoryStore.shares_iff hkey hother, FileStore.shares_iff hkey hother⟩⟩
  case accepted =>
    -- a way that stays below the top resolves, and to one path only
    simp only [Path.ofKey_eq_ok_iff, Path.staysBelow_iff]
    constructor
    · rintro ⟨path, hproper, hresolves, hne⟩
      exact ⟨hproper, ⟨path, hresolves⟩, fun htop => hne (hresolves.unique htop)⟩
    · rintro ⟨hproper, ⟨path, hresolves⟩, htop⟩
      exact ⟨path, hproper, hresolves, fun hempty => htop (hempty ▸ hresolves)⟩
  case plain =>
    have hne := ofKey_ne_nil h
    have hplain := Path.plain_of_ofKey h
    exact ⟨hne, hplain, Path.ofKey_text hne hplain⟩
  case confined =>
    have hopened := FileStore.opened_openAt hopen
    have hconfined := FileStore.confined_run hopened calls
    refine ⟨hconfined, fun key data hread => ?_⟩
    have htop : (s.run calls).top = top := hconfined.top.trans (FileStore.top_openAt hopen)
    rw [← htop]
    exact FileStore.below_of_read hread

/-- Keys with detours, and one that would leave the storage. -/
theorem detour_confined :
    Path.ofKey "/a/./b/../c" = .ok ["a", "c"] ∧ Path.ofKey (Path.text ["a", "c"]) = .ok ["a", "c"]
      ∧ (∀ s : MemoryStore, Shares "/a/./b/../c" "a//c" s)
      ∧ ¬ (∃ path, Path.ofKey "a/../../etc" = .ok path)
      ∧ FileStore.Confined roomyStore
        (roomyStore.run [.write "/a/./b/../c" [1], .write "../etc" [2], .remove "a//c"]) := by
  obtain ⟨-, haccepted, hplain, hconfined, hshares⟩ := keys_confined
  have hkey : Path.ofKey "/a/./b/../c" = .ok ["a", "c"] := by decide +kernel
  have hother : Path.ofKey "a//c" = .ok ["a", "c"] := by decide +kernel
  have hopen : FileStore.openAt ⟨.empty, none⟩ ["base", "store"] = .ok roomyStore := by decide +kernel
  refine ⟨hkey, (hplain _ _ hkey).2.2, (hshares _ _ _ _ hkey hother).1.mpr rfl, ?_,
    (hconfined _ _ _ _ hopen).1⟩
  rw [haccepted]
  rintro ⟨-, hbelow, -⟩
  exact absurd (hbelow ["a", "..", ".."] (by decide +kernel)) (by decide)

end Storage

end Acme
