import Acme.Storage.Basic

/-!
# Storages in directories

A storage that keeps each file in a tree of directories, below one of them. `FileTree` is such a
tree: a table of directories and files by path. The way to a file has to go through directories;
those that are missing are made when a file is written, and they stay.

Names and paths must not be too long, unless the tree has no limits (`FileTree.limits`).
-/

namespace Acme.Storage

inductive FileEntry
  | directory
  | file (data : Bytes)
  deriving DecidableEq, Repr

/-- How many octets names and paths may have. -/
structure Limits where
  name : Nat
  path : Nat
  deriving DecidableEq, Repr

def Limits.usual : Limits := ⟨255, 4095⟩

/-- A tree of directories. The top is always there. -/
structure FileTree where
  entries : Table Path FileEntry
  /-- None if names and paths may have any length. -/
  limits : Option Limits
  deriving DecidableEq, Repr

/-- Why a path does not lead to an entry. -/
inductive FileFault
  | missing
  /-- The path is too long, or it goes through a file. -/
  | unusable
  deriving DecidableEq, Repr

namespace FileTree

/-- The permissions of files: only their owner may read and write them. -/
def permissions : Nat := 0o600

def empty : FileTree := ⟨.empty, some .usual⟩

/-- Takes away the entry at a path. -/
def erase (t : FileTree) (path : Path) : FileTree := { t with entries := t.entries.erase path }

def insert (t : FileTree) (path : Path) (entry : FileEntry) : FileTree :=
  { t with entries := t.entries.insert path entry }

/-- How many octets a path has, a slash in front of every name. -/
def length (path : Path) : Nat := path.foldl (fun n name => n + name.utf8ByteSize + 1) 0

def nameTooLong (t : FileTree) (name : String) : Bool :=
  t.limits.any fun limits => limits.name < name.utf8ByteSize

def pathTooLong (t : FileTree) (path : Path) : Bool :=
  t.limits.any fun limits => limits.path < length path

/-- The entry that a way from another entry leads to. -/
def findFrom (t : FileTree) (above : Path) (here : FileEntry) : Path → Except FileFault FileEntry
  | [] => .ok here
  | name :: rest =>
    if here ≠ .directory ∨ t.nameTooLong name then .error .unusable
    else
      match t.entries.get? (above ++ [name]) with
      | none => .error .missing
      | some entry => findFrom t (above ++ [name]) entry rest

def find (t : FileTree) (path : Path) : Except FileFault FileEntry :=
  if t.pathTooLong path then .error .unusable else t.findFrom [] .directory path

/-- Makes the directories that are missing on a way. If one cannot be made those before it stay. -/
def makeFrom (t : FileTree) (above : Path) : Path → Except FileFault Unit × FileTree
  | [] => (.ok (), t)
  | name :: rest =>
    if t.nameTooLong name then (.error .unusable, t)
    else
      match t.entries.get? (above ++ [name]) with
      | some .directory => makeFrom t (above ++ [name]) rest
      | some (.file _) => (.error .unusable, t)
      | none => makeFrom (t.insert (above ++ [name]) .directory) (above ++ [name]) rest

/-- Makes a directory and those above it. -/
def makeDirectory (t : FileTree) (path : Path) : Except FileFault Unit × FileTree :=
  if t.pathTooLong path then (.error .unusable, t) else t.makeFrom [] path

/-- Writes a file, in a directory that is made if it is missing. -/
def write (t : FileTree) (path : Path) (data : Bytes) : Except FileFault Unit × FileTree :=
  match t.makeDirectory path.dropLast with
  | (.error fault, t) => (.error fault, t)
  | (.ok (), t) =>
    match t.find path with
    | .ok (.file _) | .error .missing => (.ok (), t.insert path (.file data))
    | .ok .directory | .error .unusable => (.error .unusable, t)

/-- Whether a path comes no later than another. A directory comes before what is in it, and names
are in the order of their octets. -/
def inOrder : Path → Path → Bool
  | [], _ => true
  | _ :: _, [] => false
  | x :: p, y :: q =>
    if x = y then inOrder p q
    else (Bytes.ofText x).lex (Bytes.ofText y) fun m n => decide (m < n)

/-- Everything in the tree, in order. -/
def toList (t : FileTree) : List (Path × FileEntry) :=
  t.entries.entries.mergeSort fun a b => inOrder a.1 b.1

end FileTree

structure FileStore where
  tree : FileTree
  /-- The path of the directory. -/
  top : Path
  deriving DecidableEq, Repr

namespace FileStore

/-- The storage in a directory, which is made if it is missing. -/
def openAt (tree : FileTree) (top : Path) : Except StorageError FileStore :=
  match tree.makeDirectory top with
  | (.ok (), tree) => .ok { tree, top }
  | (.error _, _) => .error .io

instance : Storage FileStore where
  read key := do
    let path ← Storage.path key
    let s ← get
    match s.tree.find (s.top ++ path) with
    | .ok (.file data) => return data
    | .error .missing => throw (.notFound key)
    | .ok .directory | .error .unusable => throw .io
  write key data := do
    let path ← Storage.path key
    let s ← get
    let (result, tree) := s.tree.write (s.top ++ path) data
    set { s with tree }
    match result with
    | .ok () => return ()
    | .error _ => throw .io
  remove key := do
    let path ← Storage.path key
    let s ← get
    match s.tree.find (s.top ++ path) with
    | .ok (.file _) => set { s with tree := s.tree.erase (s.top ++ path) }
    | .error .missing => return ()
    | .ok .directory | .error .unusable => throw .io
  contains key := do
    let path ← Storage.path key
    let s ← get
    match s.tree.find (s.top ++ path) with
    | .ok (.file _) => return true
    | _ => return false

end FileStore

end Acme.Storage
