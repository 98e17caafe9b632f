/-!
# Storage keys

A storage holds small files under keys. A key is written like a path: names separated by slashes,
of which empty ones and `.` mean nothing and `..` takes back the name before it.

`Path.ofKey` finds the path that a key means. A path is below the top of the storage and names
something: keys that leave the storage on their way, or end where they began, mean nothing. Nor do
keys with a slash at the end or with characters that no file name should have.
-/

namespace Acme.Storage

/-- The names on the way to a file, from the top of the storage. -/
abbrev Path := List String

inductive KeyFault
  | empty
  | invalidCharacters
  | endsInSlash
  | leavesTop
  | namesNothing
  deriving DecidableEq, Repr

/-- The text for what is wrong with a key. -/
def KeyFault.text (key : String) : KeyFault → String
  | empty => "Empty key"
  | invalidCharacters => "Invalid characters in key: " ++ key
  | endsInSlash => "File key cannot end with '/': " ++ key
  | leavesTop => "Cannot use '..' to escape root directory: " ++ key
  | namesNothing => "Invalid path: " ++ key

namespace Path

/-- What stands between slashes. -/
def components : List Char → List (List Char)
  | [] => [[]]
  | c :: rest =>
    if c = '/' then [] :: components rest
    else
      match components rest with
      | name :: names => (c :: name) :: names
      | [] => [[c]]

/-- Goes on from a path; none if that leads above the top. -/
def follow (path : Path) : List String → Option Path
  | [] => some path
  | name :: rest =>
    if name = "" ∨ name = "." then follow path rest
    else if name = ".." then
      if path = [] then none else follow path.dropLast rest
    else follow (path ++ [name]) rest

/-- Whether a character must not stand in a key. -/
def isForbidden (c : Char) : Bool := c == '\x00' || c == '\n' || c == '\r' || c == '\\'

def ofKey (key : String) : Except KeyFault Path :=
  let cs := key.toList
  if cs.isEmpty then .error .empty
  else if cs.any isForbidden then .error .invalidCharacters
  else if cs.getLast? = some '/' then .error .endsInSlash
  else
    match follow [] ((components cs).map String.ofList) with
    | none => .error .leavesTop
    | some [] => .error .namesNothing
    | some (name :: names) => .ok (name :: names)

end Path

end Acme.Storage
