import Acme.Json.Record

/-!
# Resources

A resource is an object that the server holds and describes in the bodies of its answers: an order,
an authorization or a challenge. A body does not say where its resource is, so the local copy keeps
the URL, which is the resource's identifier. All else is the server's word: a copy is replaced as a
whole, never merged.
-/

namespace Acme

/-- Types of resources. -/
class Resource (R : Type) where
  /-- The URL of the resource, empty while it has none. -/
  id : R → String
  /-- The same description under another URL. -/
  withId : R → String → R
  /-- The word for the state of the resource. -/
  status : R → String
  /-- Whether the state is final. -/
  isTerminal : R → Bool
  /-- The description as a JSON value. -/
  toJson : R → Json
  /-- Reads a description. -/
  ofNode? : Json.Node → Option R

namespace Resource

variable {R : Type} [Resource R]

/-- The resource at a URL that a body describes. -/
def ofBody? (id : String) (body : Bytes) : Option R := do
  return withId (← ofNode? (← Json.Node.read body)) id

/-- The local copy, replaced by what a body says. -/
def replaced? (r : R) (body : Bytes) : Option R := ofBody? (id r) body

end Resource

namespace Json

/-- A member that is a point in time or a word for a state is read through its text. -/
def Node.textAs? {α : Type} (read : String → Option α) (n : Node) : Option α := n.text?.bind read

/-- A word for a state, which may also be given as a name alone. -/
def Node.nameAs? {α : Type} (read : String → Option α) (n : Node) : Option α := n.name?.bind read

end Json

end Acme
