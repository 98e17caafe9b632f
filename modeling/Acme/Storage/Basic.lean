import Acme.Bytes
import Acme.Storage.Path
import Acme.Table

/-!
# Storages

What every storage can do: read, write and remove the file under a key, and say whether there is
one. `MemoryStore` is the plain storage, a table of files by path; two keys that mean the same path
are the same file.
-/

namespace Acme

/-- Why a file cannot be had or kept. -/
inductive StorageError
  | invalidKey (key : String) (fault : Storage.KeyFault)
  | notFound (key : String)
  /-- The medium refuses. -/
  | io
  deriving DecidableEq, Repr

/-- The text of an error. What a medium says is its own. -/
def StorageError.message? : StorageError → Option String
  | .invalidKey key fault => some ("Key is invalid: " ++ fault.text key)
  | .notFound key => some ("Key not found: " ++ key)
  | .io => none

/-- A piece of work with a storage, which may fail. -/
abbrev Storing (σ α : Type) : Type := ExceptT StorageError (StateM σ) α

/-- Types of storages. -/
class Storage (σ : Type) where
  /-- The octets of the file under a key. -/
  read : String → Storing σ Bytes
  /-- Writes the file under a key in place of the one that is there. -/
  write : String → Bytes → Storing σ Unit
  /-- Removes the file under a key, if there is one. -/
  remove : String → Storing σ Unit
  /-- Whether there is a file under a key. -/
  contains : String → Storing σ Bool

def Storage.path {σ : Type} (key : String) : Storing σ Storage.Path :=
  match Storage.Path.ofKey key with
  | .ok path => pure path
  | .error fault => throw (.invalidKey key fault)

structure MemoryStore where
  files : Table Storage.Path Bytes
  deriving DecidableEq, Repr

namespace MemoryStore

/-- A storage without files. -/
def empty : MemoryStore := ⟨.empty⟩

instance : Storage MemoryStore where
  read key := do
    let path ← Storage.path key
    match (← get).files.get? path with
    | some data => return data
    | none => throw (.notFound key)
  write key data := do
    let path ← Storage.path key
    modify fun s => { s with files := s.files.insert path data }
  remove key := do
    let path ← Storage.path key
    modify fun s => { s with files := s.files.erase path }
  contains key := do
    let path ← Storage.path key
    return ((← get).files.get? path).isSome

end MemoryStore

end Acme
