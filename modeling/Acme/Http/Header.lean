import Acme.Bytes

/-!
# Header fields

The header of an HTTP answer is a list of fields in the order of their arrival. Names are compared
without regard to case and consist of token characters; values are octets without controls except
the tab. `get?` gives the first value of a name, if it is all visible ASCII.
-/

namespace Acme.Http

/-- A header: names in lower case, with their values. -/
abbrev Headers := List (String × Bytes)

namespace Headers

/-- Whether a name may contain the octet. -/
def isToken (x : UInt8) : Bool :=
  (48 ≤ x && x ≤ 57) || (65 ≤ x && x ≤ 90) || (97 ≤ x && x ≤ 122)
    || (Bytes.ofText "!#$%&'*+-.^_`|~").contains x

/-- The greatest length of a name. -/
def nameLimit : Nat := 65535

/-- The name in the form in which names are compared; none if it is not a name. -/
def name? (name : String) : Option String :=
  let b := Bytes.ofText name
  if b ≠ [] ∧ b.all isToken ∧ b.length ≤ nameLimit then
    some (String.ofList (name.toList.map Char.toLower))
  else none

/-- Whether a value may contain the octet. -/
def isValueOctet (x : UInt8) : Bool := (32 ≤ x && x ≠ 127) || x == 9

/-- Whether the octet of a value can be shown as text. -/
def isVisible (x : UInt8) : Bool := (32 ≤ x && x < 127) || x == 9

/-- Adds a field at the end; a field whose name or value is not allowed is dropped. -/
def add (h : Headers) (name value : String) : Headers :=
  let b := Bytes.ofText value
  match name? name with
  | some name => if b.all isValueOctet then h ++ [(name, b)] else h
  | none => h

/-- The first value of a name, as text. -/
def get? (h : Headers) (name : String) : Option String := do
  let b ← h.lookup (← name? name)
  if b.all isVisible then some (Bytes.asciiText b) else none

end Headers

end Acme.Http
