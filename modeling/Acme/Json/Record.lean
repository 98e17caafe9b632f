import Acme.Json.Value

/-!
# Records

A record is a JSON text with named members of known meaning. It is written as an object, whose
members may stand in any order among others that are passed over, or as an array of the members'
values in their order, from which members at the end may be left out.

An object must not give a known member twice, and all of its names have to be readable. An array
must not be longer than the record.
-/

namespace Acme.Json

/-- The known members that a text gives, each at most once. -/
structure Record where
  members : List (String × Node)
  /-- Whether they were given by place and not by name. -/
  byPlace : Bool

namespace Node

/-- The members of an object by their readable names. -/
def named? (members : List (Bytes × Node)) : Option (List (String × Node)) :=
  members.mapM fun m => (writtenText? m.1).map (·, m.2)

/-- The members of a record with these names. -/
def record? (names : List String) : Node → Option Record
  | .object members => do
    let known := (← named? members).filter fun m => names.contains m.1
    if names.all fun name => known.countP (·.1 == name) ≤ 1 then
      some { members := known, byPlace := false }
    else none
  | .array items =>
    if items.length ≤ names.length then some { members := names.zip items, byPlace := true }
    else none
  | _ => none

end Node

namespace Record

def find? (r : Record) (name : String) : Option Node := r.members.lookup name

def required {α : Type} (r : Record) (name : String) (read : Node → Option α) : Option α :=
  (r.find? name).bind read

/-- A member with a value for when it is left out. -/
def withDefault {α : Type} (r : Record) (name : String) (read : Node → Option α) (value : α) :
    Option α :=
  match r.find? name with
  | some n => read n
  | none => some value

/-- A member that may be null or left out. -/
def optional {α : Type} (r : Record) (name : String) (read : Node → Option α) :
    Option (Option α) :=
  r.withDefault name (Node.nullable read) none

/-- A member that may be null, and that only an object may leave out. -/
def nullable {α : Type} (r : Record) (name : String) (read : Node → Option α) :
    Option (Option α) :=
  match r.find? name with
  | some n => Node.nullable read n
  | none => if r.byPlace then none else some none

end Record

namespace Node

/-- A value given by its name alone: as a string, or as an object whose only member has that name
and is null. -/
def name? : Node → Option String
  | .string written => writtenText? written
  | .object [(written, .null)] => writtenText? written
  | _ => none

end Node

end Acme.Json
