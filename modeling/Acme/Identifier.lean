import Acme.IpAddress
import Acme.Json.Record

/-!
# Identifiers

What a certificate is for: the name of a host or an IP address. The type is kept as text, since a
server may know types that this library does not.
-/

namespace Acme

/-- A typed name. -/
structure Identifier where
  type : String
  value : String
  deriving DecidableEq, Repr

namespace Identifier

/-- The name of a host. -/
def dns (value : String) : Identifier := ⟨"dns", value⟩

def ip (value : String) : Identifier := ⟨"ip", value⟩

/-- The identifier with a value: an IP address if it reads as one, and the name of a host
otherwise. -/
def ofName (value : String) : Identifier :=
  if (IpAddress.ofText? value).isSome then ip value else dns value

def isIp (i : Identifier) : Bool := i.type == "ip"

def text (i : Identifier) : String := i.type ++ ":" ++ i.value

def toJson (i : Identifier) : Json :=
  .object [("type", .string i.type), ("value", .string i.value)]

def ofNode? (n : Json.Node) : Option Identifier := do
  let r ← n.record? ["type", "value"]
  return { type := ← r.required "type" Json.Node.text?, value := ← r.required "value" Json.Node.text? }

end Identifier

end Acme
