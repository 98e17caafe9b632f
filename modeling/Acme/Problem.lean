import Acme.Json.Record

/-!
# Problem documents

What a server says about an error (RFC 7807): a type by which programs tell errors apart, a
sentence for people, and possibly the status code of the answer. Type and sentence are empty when
the server leaves them out.
-/

namespace Acme

structure Problem where
  type : String
  detail : String
  status : Option Nat
  deriving DecidableEq, Repr

namespace Problem

def text (p : Problem) : String := p.type ++ ": " ++ p.detail

def toJson (p : Problem) : Json :=
  .object ([("type", .string p.type), ("detail", .string p.detail)]
    ++ Json.member? "status" Json.nat p.status)

/-- Reads the document. -/
def ofNode? (n : Json.Node) : Option Problem := do
  let r ← n.record? ["type", "detail", "status"]
  let type ← r.withDefault "type" Json.Node.text? ""
  let detail ← r.withDefault "detail" Json.Node.text? ""
  let status ← r.optional "status" (Json.Node.nat? 16)
  return { type, detail, status }

end Problem

end Acme
