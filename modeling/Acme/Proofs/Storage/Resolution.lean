import Acme.Storage.Path
import Mathlib.Data.List.Induction
import Mathlib.Tactic.MkIffOfInductiveProp
import Mathlib.Logic.Relation

/-!
# What a key means

A key writes a way: names between slashes, of which empty ones and `.` lead nowhere and `..` takes back the
name before it. Taking such parts out one by one (`Shortens`) ends at a path (`Resolves`), unless the way
leads above the top (`staysBelow_iff`).

`Path.follow` finds this path with a stack, name by name (`follow_eq_some_iff`). A key is accepted exactly
if it is proper and leads somewhere below the top, and then it means the path that its way resolves to
(`ofKey_eq_ok_iff`). Written as a key, that path means itself (`ofKey_text`).
-/

namespace Acme.Storage.Path

open Relation (ReflTransGen)

/-! ### Ways -/

/-- A name that leads down. -/
def IsName (name : String) : Prop := name ∉ ["", ".", ".."]

instance : DecidablePred IsName := fun name => inferInstanceAs (Decidable (name ∉ ["", ".", ".."]))

/-- The names between the slashes of a key. -/
def way (key : String) : List String := (key.toList.splitOn '/').map String.ofList

/-- Takes a part that leads nowhere out of a way. -/
inductive Shortens : List String → List String → Prop
  | empty (before after : List String) : Shortens (before ++ "" :: after) (before ++ after)
  | here (before after : List String) : Shortens (before ++ "." :: after) (before ++ after)
  | back (before after : List String) {name : String} (h : IsName name) :
    Shortens (before ++ name :: ".." :: after) (before ++ after)

/-- A path is what remains of a way when everything is taken out of it that leads nowhere. -/
structure Resolves (names : List String) (path : Path) : Prop where
  shortens : ReflTransGen Shortens names path
  down : ∀ name ∈ path, IsName name

/-- A way that nowhere has led up more often than down. -/
def StaysBelow (names : List String) : Prop :=
  ∀ before, before <+: names → before.count ".." ≤ before.countP fun name => IsName name

/-- A key that is not empty, does not end in a slash and has no character that must not stand in keys. -/
@[mk_iff]
structure IsProper (key : String) : Prop where
  ne_empty : key ≠ ""
  characters : ∀ c ∈ key.toList, c ∉ ['\x00', '\n', '\r', '\\']
  noSlash : ¬ ['/'] <:+ key.toList

/-- A name that can stand in a path and in a key. -/
structure IsPlain (name : String) : Prop where
  down : IsName name
  characters : ∀ c ∈ name.toList, c ∉ ['/', '\x00', '\n', '\r', '\\']

/-! ### Going along a way -/

variable {path p : Path} {names names' : List String} {key : String}

theorem follow_name {name : String} (h : IsName name) :
    follow path (name :: names) = follow (path ++ [name]) names := by
  simp only [IsName, List.mem_cons, List.not_mem_nil, or_false, not_or] at h
  rw [follow, if_neg (by simp [h.1, h.2.1]), if_neg h.2.2]

theorem follow_append (path : Path) (names more : List String) :
    follow path (names ++ more) = (follow path names).bind fun q => follow q more := by
  induction names generalizing path with
  | nil => rfl
  | cons name names ih =>
    rw [List.cons_append, follow, follow]
    split
    · exact ih path
    · split
      · split
        · rfl
        · exact ih path.dropLast
      · exact ih (path ++ [name])

/-- Parts that lead nowhere make no difference. -/
theorem follow_shortens (h : Shortens names names') (path : Path) :
    follow path names = follow path names' := by
  cases h with
  | empty before after =>
    rw [follow_append, follow_append]
    rfl
  | here before after =>
    rw [follow_append, follow_append]
    rfl
  | @back before after name hname =>
    rw [follow_append, follow_append]
    congr 1
    funext q
    -- the name that was added last is taken away again
    rw [follow_name hname, follow, if_neg (by decide), if_pos rfl, if_neg (by simp),
      List.dropLast_concat]

theorem follow_shortened (h : ReflTransGen Shortens names names') (path : Path) :
    follow path names = follow path names' := by
  induction h with
  | refl => rfl
  | tail _ hstep ih => exact ih.trans (follow_shortens hstep path)

theorem follow_names (h : ∀ name ∈ names, IsName name) : follow path names = some (path ++ names) := by
  induction names generalizing path with
  | nil => simp [follow]
  | cons name names ih =>
    rw [follow_name (h name (by simp)), ih fun other hother => h other (by simp [hother]),
      List.append_assoc, List.singleton_append]

/-- Where a way leads is what remains of it. -/
theorem resolves_of_follow (hpath : ∀ name ∈ path, IsName name) (h : follow path names = some p) :
    Resolves (path ++ names) p := by
  induction names generalizing path with
  | nil =>
    cases h
    rw [List.append_nil]
    exact ⟨.refl, hpath⟩
  | cons name names ih =>
    rw [follow] at h
    split at h
    · -- an empty step or a dot leads nowhere
      rename_i hnowhere
      have hrest := ih hpath h
      rcases hnowhere with rfl | rfl
      · exact ⟨hrest.shortens.head (.empty path names), hrest.down⟩
      · exact ⟨hrest.shortens.head (.here path names), hrest.down⟩
    · rename_i hsomewhere
      split at h
      · rename_i hback
        split at h
        · cases h
        · rename_i hne
          -- a step back takes the last name with it, if there is one
          obtain ⟨above, last, rfl⟩ := (List.eq_nil_or_concat path).resolve_left hne
          rw [List.concat_eq_append] at hpath h ⊢
          rw [List.dropLast_concat] at h
          have hrest := ih (fun name hname => hpath name (by simp [hname])) h
          subst hback
          refine ⟨hrest.shortens.head ?_, hrest.down⟩
          rw [List.append_assoc, List.singleton_append]
          exact .back above names (hpath last (by simp))
      · rename_i hdown
        have hname : IsName name := by
          rw [not_or] at hsomewhere
          simp [IsName, hsomewhere.1, hsomewhere.2, hdown]
        have hlonger : ∀ other ∈ path ++ [name], IsName other := by
          simpa [or_imp, forall_and, hname] using hpath
        have hrest := ih hlonger h
        rw [List.append_assoc, List.singleton_append] at hrest
        exact hrest

theorem follow_eq_some_iff : follow [] names = some p ↔ Resolves names p := by
  constructor
  · intro h
    exact resolves_of_follow (List.forall_mem_nil _) h
  · rintro ⟨hshortens, hdown⟩
    rw [follow_shortened hshortens, follow_names hdown]
    rfl

theorem Resolves.unique {q : Path} (h : Resolves names p) (h' : Resolves names q) : p = q := by
  have hsame := (follow_eq_some_iff.mpr h).symm.trans (follow_eq_some_iff.mpr h')
  exact Option.some.inj hsame

/-! ### Staying below the top -/

theorem forall_prefix_cons {α : Type} {P : List α → Prop} {a : α} {l : List α} :
    (∀ before, before <+: a :: l → P before) ↔ P [] ∧ ∀ before, before <+: l → P (a :: before) := by
  simp only [List.prefix_cons_iff, or_imp, forall_and, forall_eq]
  refine and_congr_right fun _ => ⟨fun h before hbefore => h _ ⟨before, rfl, hbefore⟩, ?_⟩
  rintro h _ ⟨before, rfl, hbefore⟩
  exact h before hbefore

/-- A way can be followed from a path exactly if it never leads up further than the path is long. -/
theorem exists_follow_iff :
    (∃ p, follow path names = some p)
      ↔ ∀ before, before <+: names →
        before.count ".." ≤ path.length + before.countP fun name => IsName name := by
  induction names generalizing path with
  | nil => simp [follow]
  | cons name names ih =>
    rw [forall_prefix_cons]
    by_cases hname : IsName name
    · have hup : name ≠ ".." := by
        rintro rfl
        exact absurd hname (by decide)
      rw [follow_name hname, ih]
      simp [hname, hup, Nat.add_assoc, Nat.add_comm 1]
    · rw [follow]
      by_cases hup : name = ".."
      · subst hup
        rw [if_neg (by decide), if_pos rfl]
        cases path using List.reverseRecOn with
        | nil =>
          -- the first step already leads above the top
          refine iff_of_false (by simp) fun h => ?_
          simpa [hname] using h.2 [] List.nil_prefix
        | append_singleton above last =>
          rw [if_neg (by simp), List.dropLast_concat, ih]
          simp [hname, Nat.add_right_comm _ 1]
      · have hnowhere : name = "" ∨ name = "." := by
          simpa [IsName, hup, or_iff_not_imp_left] using hname
        rw [if_pos hnowhere, ih]
        simp [hname, hup]

/-- A way leads somewhere at or below the top exactly if no beginning of it leads up more often than
down. -/
theorem staysBelow_iff : StaysBelow names ↔ ∃ p, Resolves names p := by
  simp only [← follow_eq_some_iff, exists_follow_iff, List.length_nil, Nat.zero_add]
  rfl

/-! ### Keys -/

theorem components_ne_nil (cs : List Char) : components cs ≠ [] := by
  unfold components
  repeat' split
  all_goals simp

theorem components_cons (cs : List Char) {c : Char} (hc : c ≠ '/') :
    ∃ first rest, components cs = first :: rest ∧ components (c :: cs) = (c :: first) :: rest := by
  obtain ⟨first, rest, hcs⟩ := List.exists_cons_of_ne_nil (components_ne_nil cs)
  exact ⟨first, rest, hcs, by rw [components, if_neg hc, hcs]⟩

theorem components_eq (cs : List Char) : components cs = cs.splitOn '/' := by
  rw [List.splitOn]
  induction cs with
  | nil => rfl
  | cons c cs ih =>
    rw [List.splitOnP_cons_eq_if_modifyHead, ← ih]
    by_cases hc : c = '/'
    · simp [components, hc]
    · obtain ⟨first, rest, hcs, hcons⟩ := components_cons cs hc
      simp [hcs, hcons, hc]

theorem isForbidden_iff {c : Char} : isForbidden c ↔ c ∈ ['\x00', '\n', '\r', '\\'] := by
  simp [isForbidden, or_assoc]

theorem getLast?_eq_some_iff_suffix {α : Type} {l : List α} {a : α} :
    l.getLast? = some a ↔ [a] <:+ l := by
  rw [List.getLast?_eq_some_iff]
  exact ⟨fun ⟨before, h⟩ => ⟨before, h.symm⟩, fun ⟨before, h⟩ => ⟨before, h.symm⟩⟩

/-- A key is accepted exactly if it is proper and its way leads somewhere below the top. -/
theorem ofKey_eq_ok_iff :
    ofKey key = .ok path ↔ IsProper key ∧ Resolves (way key) path ∧ path ≠ [] := by
  have hway : (components key.toList).map String.ofList = way key := by rw [components_eq, way]
  -- the three checks at the front are what it is to be proper
  have hproper : IsProper key ↔ ¬ key.toList.isEmpty ∧ ¬ key.toList.any isForbidden
      ∧ ¬ key.toList.getLast? = some '/' := by
    rw [isProper_iff, getLast?_eq_some_iff_suffix]
    simp [isForbidden_iff]
  rw [ofKey, hway, hproper, ← follow_eq_some_iff]
  split
  · simp [*]
  split
  · simp [*]
  split
  · simp [*]
  · split
    · simp [*]
    · simp [*]
    · rename_i name names _
      simp only [*, Except.ok.injEq, Option.some.injEq]
      constructor
      · rintro rfl
        simp
      · exact fun h => h.2.1

/-! ### Names of keys and paths -/

/-- What stands between slashes has no slash in it, and its characters are from the key. -/
theorem mem_components {cs part : List Char} (h : part ∈ components cs) : '/' ∉ part ∧ part ⊆ cs := by
  induction cs generalizing part with
  | nil => simp_all [components]
  | cons c cs ih =>
    by_cases hc : c = '/'
    · rw [components, if_pos hc] at h
      rcases List.mem_cons.mp h with rfl | h
      · simp
      · exact ⟨(ih h).1, List.subset_cons_of_subset _ (ih h).2⟩
    · obtain ⟨first, rest, hcs, hcons⟩ := components_cons cs hc
      rw [hcs] at ih
      rw [hcons] at h
      rcases List.mem_cons.mp h with rfl | h
      · obtain ⟨hslash, hsubset⟩ := ih List.mem_cons_self
        exact ⟨by simp [Ne.symm hc, hslash], List.cons_subset_cons _ hsubset⟩
      · obtain ⟨hslash, hsubset⟩ := ih (List.mem_cons_of_mem _ h)
        exact ⟨hslash, List.subset_cons_of_subset _ hsubset⟩

theorem exists_component {cs : List Char} {c : Char} (h : c ∈ cs) (hc : c ≠ '/') :
    ∃ part ∈ components cs, c ∈ part := by
  induction cs with
  | nil => cases h
  | cons d cs ih =>
    by_cases hd : d = '/'
    · rw [components, if_pos hd]
      obtain ⟨part, hpart, hmem⟩ := ih ((List.mem_cons.mp h).resolve_left (hd ▸ hc))
      exact ⟨part, List.mem_cons_of_mem _ hpart, hmem⟩
    · obtain ⟨first, rest, hcs, hcons⟩ := components_cons cs hd
      rw [hcons]
      rcases List.mem_cons.mp h with rfl | h
      · exact ⟨_, List.mem_cons_self, List.mem_cons_self⟩
      · obtain ⟨part, hpart, hmem⟩ := ih h
        rw [hcs] at hpart
        rcases List.mem_cons.mp hpart with rfl | hpart
        · exact ⟨_, List.mem_cons_self, List.mem_cons_of_mem _ hmem⟩
        · exact ⟨part, List.mem_cons_of_mem _ hpart, hmem⟩

theorem mem_of_mem_way {name : String} (h : name ∈ way key) {c : Char} (hc : c ∈ name.toList) :
    c ∈ key.toList ∧ c ≠ '/' := by
  rw [way, ← components_eq] at h
  obtain ⟨part, hpart, rfl⟩ := List.mem_map.mp h
  rw [String.toList_ofList] at hc
  obtain ⟨hslash, hsubset⟩ := mem_components hpart
  exact ⟨hsubset hc, fun h => hslash (h ▸ hc)⟩

theorem subset_of_shortens (h : ReflTransGen Shortens names names') : names' ⊆ names := by
  induction h with
  | refl => exact List.Subset.refl _
  | tail _ hstep ih =>
    refine List.Subset.trans (List.Sublist.subset ?_) ih
    cases hstep with
    | empty before after => exact (List.sublist_cons_self _ _).append_left before
    | here before after => exact (List.sublist_cons_self _ _).append_left before
    | back before after _ =>
      exact ((List.sublist_cons_self _ _).trans (List.sublist_cons_self _ _)).append_left before

/-- All names of a path that a key means are plain. -/
theorem plain_of_ofKey (h : ofKey key = .ok path) : ∀ name ∈ path, IsPlain name := by
  obtain ⟨hproper, hresolves, -⟩ := ofKey_eq_ok_iff.mp h
  intro name hname
  refine ⟨hresolves.down name hname, fun c hc => ?_⟩
  obtain ⟨hkey, hslash⟩ := mem_of_mem_way (subset_of_shortens hresolves.shortens hname) hc
  simpa [hslash] using hproper.characters c hkey

/-! ### Paths written as keys -/

/-- The names of a path with slashes between them. -/
def text (path : Path) : String := "/".intercalate path

theorem way_text (hne : path ≠ []) (h : ∀ name ∈ path, IsPlain name) : way (text path) = path := by
  have hslash : ∀ name ∈ path, '/' ∉ name.toList := fun name hname hmem =>
    (h name hname).characters '/' hmem (by simp)
  have hsplit : (['/'].intercalate (path.map String.toList)).splitOn '/' = path.map String.toList :=
    List.splitOn_intercalate '/' (by simpa using hslash) (by simpa using hne)
  rw [way, text, String.toList_intercalate, show "/".toList = ['/'] from rfl, hsplit, List.map_map]
  simp

/-- A key that ends in a slash has an empty name at its end. -/
theorem empty_mem_way (h : ['/'] <:+ key.toList) : "" ∈ way key := by
  obtain ⟨before, hkey⟩ := h
  rw [way, ← hkey, List.splitOn, List.splitOnP_append_cons before [] rfl]
  simp

/-- A path of plain names, written as a key, means itself. -/
theorem ofKey_text (hne : path ≠ []) (h : ∀ name ∈ path, IsPlain name) : ofKey (text path) = .ok path := by
  have hway := way_text hne h
  -- the way of the text is the path, which has no empty name
  have hempty : "" ∉ path := fun hmem => absurd (h "" hmem).down (by decide)
  rw [ofKey_eq_ok_iff, hway]
  refine ⟨{ ne_empty := ?ne, characters := ?characters, noSlash := ?slash },
    ⟨.refl, fun name hname => (h name hname).down⟩, hne⟩
  case ne =>
    intro htext
    rw [htext] at hway
    exact hempty (hway ▸ (by decide : "" ∈ way ""))
  case slash =>
    intro hslash
    exact hempty (hway ▸ empty_mem_way hslash)
  case characters =>
    intro c hc hforbidden
    have hslash : c ≠ '/' := by
      rintro rfl
      simp at hforbidden
    obtain ⟨part, hpart, hmem⟩ := exists_component hc hslash
    have hname : String.ofList part ∈ path := by
      rw [← hway, way, ← components_eq]
      exact List.mem_map_of_mem hpart
    have hplain := (h _ hname).characters c (by simpa using hmem)
    simp [hslash] at hplain hforbidden
    simp [hplain] at hforbidden

end Acme.Storage.Path
