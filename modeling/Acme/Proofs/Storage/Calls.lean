import Acme.Proofs.History
import Acme.Proofs.Stateful
import Acme.Storage.Basic
import Mathlib.Data.List.Induction
import Mathlib.Logic.Function.Basic

/-!
# Calls of storages

A storage is asked one thing after another (`answers`). `Call.answer` and `Call.after` say what it should
answer and hold then, whatever it keeps its files in: the state is a file for every path, or none. A
storage that keeps to this at every call does so over any run (`answers_eq`), and two such storages
answer alike. What a kind of storage has to show for it is `Right`: what its functions do at a path.

What a run leaves at a path is what was last written there, under any key that means the path, unless it
was removed since (`filesAfter_eq_some_iff`).
-/

namespace Acme

namespace Storage

/-- What a storage can be asked. -/
inductive Call
  | read (key : String)
  | write (key : String) (data : Bytes)
  | remove (key : String)
  | contains (key : String)
  deriving DecidableEq, Repr

inductive Reply
  | octets (data : Bytes)
  | done
  | found (yes : Bool)
  deriving DecidableEq, Repr

abbrev Answer := Except StorageError Reply

/-- What is kept at each path. -/
abbrev Files := Path → Option Bytes

namespace Call

def key : Call → String
  | read key | write key _ | remove key | contains key => key

/-- Whether a call changes what is at a path. -/
def Changes (path : Path) : Call → Prop
  | read _ | contains _ => False
  | write key _ | remove key => Path.ofKey key = .ok path

def ask {σ : Type} [Storage σ] : Call → Storing σ Reply
  | read key => .octets <$> Storage.read key
  | write key data => (fun _ => .done) <$> Storage.write key data
  | remove key => (fun _ => .done) <$> Storage.remove key
  | contains key => .found <$> Storage.contains key

/-- The right answer about a path. -/
def answerAt (files : Files) (path : Path) : Call → Answer
  | read key =>
    match files path with
    | some data => .ok (.octets data)
    | none => .error (.notFound key)
  | write _ _ | remove _ => .ok .done
  | contains _ => .ok (.found (files path).isSome)

/-- What is kept after a call about a path. -/
def afterAt (files : Files) (path : Path) : Call → Files
  | read _ | contains _ => files
  | write _ data => Function.update files path (some data)
  | remove _ => Function.update files path none

/-- The right answer. -/
def answer (files : Files) (c : Call) : Answer :=
  match Path.ofKey c.key with
  | .error fault => .error (.invalidKey c.key fault)
  | .ok path => c.answerAt files path

/-- What is kept after a call. -/
def after (files : Files) (c : Call) : Files :=
  match Path.ofKey c.key with
  | .error _ => files
  | .ok path => c.afterAt files path

end Call

/-- The answers to calls, each made whatever the one before has come to. -/
def answers {σ : Type} [Storage σ] : List Call → σ → List Answer
  | [], _ => []
  | c :: cs, s => (c.ask s).1 :: answers cs (c.ask s).2

/-- What is kept after some calls, if nothing was there before. -/
def filesAfter (calls : List Call) : Files := calls.foldl Call.after fun _ => none

/-- The data that was last written at a path and not removed since. -/
def LastWritten (calls : List Call) (path : Path) (data : Bytes) : Prop :=
  ∃ before key since, calls = before ++ .write key data :: since ∧ Path.ofKey key = .ok path
    ∧ ∀ c ∈ since, ¬ c.Changes path

/-! ### What calls leave -/

variable {files : Files} {c : Call} {path : Path} {data : Bytes}

/-- What a call makes of what is at a path. -/
def Call.change? (path : Path) : Call → Option (Option Bytes)
  | read _ | contains _ => none
  | write key data => if Path.ofKey key = .ok path then some (some data) else none
  | remove key => if Path.ofKey key = .ok path then some none else none

theorem after_apply : c.after files path = (c.change? path).getD (files path) := by
  rw [Call.after]
  cases hkey : Path.ofKey c.key with
  | error fault => cases c <;> simp_all [Call.change?, Call.key]
  | ok other =>
    by_cases hother : other = path
    · subst hother
      cases c <;> simp_all [Call.afterAt, Call.change?, Call.key]
    · cases c <;> simp_all [Call.afterAt, Call.change?, Call.key, Ne.symm hother]

theorem change?_eq_none_iff : c.change? path = none ↔ ¬ c.Changes path := by
  cases c <;> simp [Call.change?, Call.Changes]

theorem change?_eq_some_iff :
    c.change? path = some (some data) ↔ ∃ key, c = .write key data ∧ Path.ofKey key = .ok path := by
  cases c <;> simp [Call.change?, and_comm]

theorem filesAfter_apply (calls : List Call) (path : Path) :
    filesAfter calls path = lastChange (Call.change? path) calls := by
  induction calls using List.reverseRecOn with
  | nil => rfl
  | append_singleton calls c ih =>
    rw [lastChange_concat, ← ih, filesAfter, List.foldl_append]
    exact after_apply

theorem filesAfter_eq_some_iff {calls : List Call} :
    filesAfter calls path = some data ↔ LastWritten calls path data := by
  rw [filesAfter_apply, lastChange_eq_some_iff]
  constructor
  · rintro ⟨before, c, since, hcalls, hc, hsince⟩
    obtain ⟨key, rfl, hkey⟩ := change?_eq_some_iff.mp hc
    exact ⟨before, key, since, hcalls, hkey, fun c hc => change?_eq_none_iff.mp (hsince c hc)⟩
  · rintro ⟨before, key, since, hcalls, hkey, hsince⟩
    exact ⟨before, .write key data, since, hcalls, change?_eq_some_iff.mpr ⟨key, rfl, hkey⟩,
      fun c hc => change?_eq_none_iff.mpr (hsince c hc)⟩

/-! ### Runs -/

/-- The right answers to some calls. -/
def rightAnswers : List Call → Files → List Answer
  | [], _ => []
  | c :: cs, files => c.answer files :: rightAnswers cs (c.after files)

/-- A storage that gives the right answer to each of some calls, and keeps what it should, does so over
a run of them. -/
theorem answers_eq {σ : Type} [Storage σ] {K : σ → Files → Prop} {calls : List Call}
    (hstep : ∀ c ∈ calls, ∀ s files, K s files →
      (c.ask s).1 = c.answer files ∧ K (c.ask s).2 (c.after files))
    {s : σ} {files : Files} (h : K s files) : answers calls s = rightAnswers calls files := by
  induction calls generalizing s files with
  | nil => rfl
  | cons c calls ih =>
    obtain ⟨hanswer, hkeeps⟩ := hstep c (by simp) s files h
    rw [answers, rightAnswers, hanswer, ih (fun c hc => hstep c (by simp [hc])) hkeeps]

theorem getElem?_rightAnswers (before : List Call) (c : Call) (rest : List Call) (files : Files) :
    (rightAnswers (before ++ c :: rest) files)[before.length]?
      = some (c.answer (before.foldl Call.after files)) := by
  induction before generalizing files with
  | nil => rfl
  | cons first before ih => exact ih (first.after files)

/-- A read gives what was last written, or finds nothing. -/
theorem read_rightAnswers {before rest : List Call} {key : String} (hkey : Path.ofKey key = .ok path) :
    ∃ a, (rightAnswers (before ++ .read key :: rest) fun _ => none)[before.length]? = some a
      ∧ (∀ data, a = .ok (.octets data) ↔ LastWritten before path data)
      ∧ ((∀ data, ¬ LastWritten before path data) → a = .error (.notFound key)) := by
  -- the answer depends on the files as the calls before have left them
  have hread : (Call.read key).answer (filesAfter before)
      = match filesAfter before path with
        | some data => .ok (.octets data)
        | none => .error (.notFound key) := by
    rw [Call.answer, show Path.ofKey (Call.read key).key = .ok path from hkey]
    rfl
  refine ⟨_, getElem?_rightAnswers before (.read key) rest _, ?_, ?_⟩
  · intro data
    rw [← filesAfter_eq_some_iff]
    show (Call.read key).answer (filesAfter before) = _ ↔ _
    rw [hread]
    cases filesAfter before path <;> simp
  · intro h
    show (Call.read key).answer (filesAfter before) = _
    rw [hread]
    cases hfile : filesAfter before path with
    | none => rfl
    | some data => exact absurd (filesAfter_eq_some_iff.mp hfile) (h data)

/-! ### Single calls -/

variable {σ : Type} (s : σ) {key : String}

theorem path_ok (h : Path.ofKey key = .ok path) :
    (Storage.path key : Storing σ Path) s = (.ok path, s) := by
  rw [Storage.path, h]
  rfl

theorem path_error {fault : KeyFault} (h : Path.ofKey key = .error fault) :
    (Storage.path key : Storing σ Path) s = (.error (.invalidKey key fault), s) := by
  rw [Storage.path, h]
  rfl

variable [Storage σ] {K : σ → Files → Prop} {s}

/-- What a storage does at a path is right, `K` being how it keeps its files. -/
structure Right (K : σ → Files → Prop) (s : σ) (files : Files) (key : String) (path : Path) : Prop where
  read : (Storage.read key : Storing σ Bytes) s = (match files path with
    | some data => .ok data
    | none => .error (.notFound key), s)
  write (data : Bytes) : ∃ t, (Storage.write key data : Storing σ Unit) s = (.ok (), t)
    ∧ K t (Function.update files path (some data))
  remove : ∃ t, (Storage.remove key : Storing σ Unit) s = (.ok (), t)
    ∧ K t (Function.update files path none)
  contains : (Storage.contains key : Storing σ Bool) s = (.ok (files path).isSome, s)

/-- A call with a key that means a path is answered as what the storage does at the path. -/
theorem ask_of_right (h : K s files) (hkey : Path.ofKey c.key = .ok path)
    (hright : Right K s files c.key path) :
    (c.ask s).1 = c.answer files ∧ K (c.ask s).2 (c.after files) := by
  rw [Call.answer, Call.after, hkey]
  dsimp only
  cases c with
  | read key =>
    -- reading and looking leave the storage as it was; the other two calls are as the storage promises
    have hread := hright.read
    have hask : (Call.read key).ask s = ((Call.read key).answerAt files path, s) := by
      rw [Call.answerAt]
      cases hfile : files path with
      | some data =>
        rw [hfile] at hread
        exact Stateful.map_ok hread
      | none =>
        rw [hfile] at hread
        exact Stateful.map_error hread
    rw [hask]
    exact ⟨rfl, h⟩
  | write key data =>
    obtain ⟨t, hwrite, hkeeps⟩ := hright.write data
    have hask : (Call.write key data).ask s = (.ok .done, t) := Stateful.map_ok hwrite
    rw [hask]
    exact ⟨rfl, hkeeps⟩
  | remove key =>
    obtain ⟨t, hremove, hkeeps⟩ := hright.remove
    have hask : (Call.remove key).ask s = (.ok .done, t) := Stateful.map_ok hremove
    rw [hask]
    exact ⟨rfl, hkeeps⟩
  | contains key =>
    have hask : (Call.contains key).ask s = (.ok (.found (files path).isSome), s) :=
      Stateful.map_ok hright.contains
    rw [hask]
    exact ⟨rfl, h⟩

/-- A call with a key that means nothing is refused and changes nothing. -/
theorem ask_of_error {fault : KeyFault} (h : K s files) (hkey : Path.ofKey c.key = .error fault)
    (hask : c.ask s = (.error (.invalidKey c.key fault), s)) :
    (c.ask s).1 = c.answer files ∧ K (c.ask s).2 (c.after files) := by
  rw [hask, Call.answer, Call.after, hkey]
  exact ⟨rfl, h⟩

end Storage

/-! ### Storages in memory -/

namespace MemoryStore

open Storage (path_ok path_error)

variable {key : String} {path : Storage.Path} (s : MemoryStore)

theorem write_apply (h : Storage.Path.ofKey key = .ok path) (data : Bytes) :
    (Storage.write key data : Storing MemoryStore Unit) s
      = (.ok (), ⟨s.files.insert path data⟩) :=
  Stateful.bind_ok (path_ok s h)

theorem read_apply (h : Storage.Path.ofKey key = .ok path) {data : Bytes}
    (hfile : s.files.get? path = some data) :
    (Storage.read key : Storing MemoryStore Bytes) s = (.ok data, s) := by
  have hfound : (get : Storing MemoryStore MemoryStore) s = (.ok s, s) := Stateful.get_apply s
  refine (Stateful.bind_ok (path_ok s h)).trans ((Stateful.bind_ok hfound).trans ?_)
  rw [hfile]
  rfl

theorem read_missing (h : Storage.Path.ofKey key = .ok path) (hfile : s.files.get? path = none) :
    (Storage.read key : Storing MemoryStore Bytes) s = (.error (.notFound key), s) := by
  have hfound : (get : Storing MemoryStore MemoryStore) s = (.ok s, s) := Stateful.get_apply s
  refine (Stateful.bind_ok (path_ok s h)).trans ((Stateful.bind_ok hfound).trans ?_)
  rw [hfile]
  rfl

/-- What a storage in memory keeps. -/
def Holds (s : MemoryStore) (files : Storage.Files) : Prop := s.files.get? = files

variable {s} {files : Storage.Files}

theorem Holds.insert (h : s.Holds files) (path : Storage.Path) (data : Bytes) :
    Holds ⟨s.files.insert path data⟩ (Function.update files path (some data)) := by
  funext other
  rw [← h, Function.update_apply, Table.get?_insert]
  simp only [eq_comm]

theorem Holds.erase (h : s.Holds files) (path : Storage.Path) :
    Holds ⟨s.files.erase path⟩ (Function.update files path none) := by
  funext other
  rw [← h, Function.update_apply, Table.get?_erase]
  simp only [eq_comm]

theorem Holds.right (h : s.Holds files) (hkey : Storage.Path.ofKey key = .ok path) :
    Storage.Right Holds s files key path where
  read := by
    rw [← h]
    cases hfile : s.files.get? path with
    | some data => exact read_apply s hkey hfile
    | none => exact read_missing s hkey hfile
  write data := ⟨_, write_apply s hkey data, h.insert path data⟩
  remove := ⟨⟨s.files.erase path⟩, Stateful.bind_ok (path_ok s hkey), h.erase path⟩
  contains := by
    rw [← h]
    exact Stateful.bind_ok (path_ok s hkey)

/-- A storage in memory gives the right answers and keeps what it should. -/
theorem Holds.ask (h : s.Holds files) (c : Storage.Call) :
    (c.ask s).1 = c.answer files ∧ Holds (c.ask s).2 (c.after files) := by
  cases hkey : Storage.Path.ofKey c.key with
  | ok path => exact Storage.ask_of_right h hkey (h.right hkey)
  | error fault =>
    apply Storage.ask_of_error h hkey
    cases c <;> exact Stateful.map_error (Stateful.bind_error (path_error s hkey))

end MemoryStore

end Acme
