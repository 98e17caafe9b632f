import Acme.Bytes
import Acme.Json.Binary64

/-!
# JSON values

The values that a JSON text (RFC 8259) stands for. An object is the list of its members in the
order in which they are written; texts that this library writes never repeat a name.

`Json.text` writes a value without white space, and `Json.prettyText` with one member or item on a
line. A string is written with the two-character escapes of quotation marks, backslashes and the
five common controls, with `\u00xx` for other controls, and with all else as it is.
-/

namespace Acme

namespace Json

/-- A number: an integer, or a binary floating point number with its sign. -/
inductive Number
  | integer (n : Int)
  | real (negative : Bool) (magnitude : Binary64)
  deriving DecidableEq, Repr

def Number.text : Number → String
  | .integer n => toString n
  | .real negative magnitude => (if negative then "-" else "") ++ magnitude.text

end Json

inductive Json
  | null
  | bool (value : Bool)
  | number (value : Json.Number)
  | string (value : String)
  | array (items : List Json)
  | object (members : List (String × Json))

instance : Inhabited Json := ⟨.null⟩

namespace Json

def int (n : Int) : Json := .number (.integer n)

def nat (n : Nat) : Json := .number (.integer n)

def strings (ss : List String) : Json := .array (ss.map .string)

/-- A value that may be missing. -/
def ofOption {α : Type} (f : α → Json) : Option α → Json
  | some a => f a
  | none => .null

/-- A member that is left out when there is no value for it. -/
def member? {α : Type} (name : String) (f : α → Json) : Option α → List (String × Json)
  | some a => [(name, f a)]
  | none => []

/-! ### Looking into values -/

def asString? : Json → Option String
  | .string s => some s
  | _ => none

/-- The value of a truth value. -/
def asBool? : Json → Option Bool
  | .bool b => some b
  | _ => none

/-- The value of a natural number. -/
def asNat? : Json → Option Nat
  | .number (.integer (.ofNat n)) => some n
  | _ => none

def items : Json → List Json
  | .array items => items
  | _ => []

def members : Json → List (String × Json)
  | .object members => members
  | _ => []

/-- The value of a member, null if there is none. -/
def get (j : Json) (name : String) : Json := (j.members.lookup name).getD .null

/-! ### Strings -/

/-- The two characters that a common control, a quotation mark or a backslash is written as. -/
def shortEscape? (c : Char) : Option Char :=
  if c = '"' then some '"'
  else if c = '\\' then some '\\'
  else if c = '\x08' then some 'b'
  else if c = '\x0c' then some 'f'
  else if c = '\n' then some 'n'
  else if c = '\r' then some 'r'
  else if c = '\t' then some 't'
  else none

/-- One character inside a string. -/
def escape (c : Char) : List Char :=
  match shortEscape? c with
  | some e => ['\\', e]
  | none =>
    if c.toNat < 32 then
      ['\\', 'u', '0', '0', Bytes.hexDigit (c.toNat / 16), Bytes.hexDigit (c.toNat % 16)]
    else [c]

def quoted (s : String) : String := String.ofList ('"' :: s.toList.flatMap escape ++ ['"'])

/-! ### Texts -/

mutual

/-- The text of a value, without white space. -/
def text : Json → String
  | .null => "null"
  | .bool true => "true"
  | .bool false => "false"
  | .number n => n.text
  | .string s => quoted s
  | .array items => "[" ++ itemsText items ++ "]"
  | .object members => "\x7b" ++ membersText members ++ "\x7d"

/-- The texts of items, separated by commas. -/
def itemsText : List Json → String
  | [] => ""
  | [item] => text item
  | item :: rest => text item ++ "," ++ itemsText rest

/-- The texts of members, separated by commas. -/
def membersText : List (String × Json) → String
  | [] => ""
  | [(name, value)] => quoted name ++ ":" ++ text value
  | (name, value) :: rest => quoted name ++ ":" ++ text value ++ "," ++ membersText rest

end

/-- A line break and two spaces for every level of nesting. -/
def newline (level : Nat) : String := String.ofList ('\n' :: List.replicate (2 * level) ' ')

mutual

/-- The text of a value at a level of nesting, with one member or item on a line. Empty arrays and
objects stay on their line. -/
def prettyAt (level : Nat) : Json → String
  | .null => "null"
  | .bool true => "true"
  | .bool false => "false"
  | .number n => n.text
  | .string s => quoted s
  | .array [] => "[]"
  | .array items => "[" ++ prettyItems (level + 1) items ++ newline level ++ "]"
  | .object [] => "\x7b\x7d"
  | .object members => "\x7b" ++ prettyMembers (level + 1) members ++ newline level ++ "\x7d"

def prettyItems (level : Nat) : List Json → String
  | [] => ""
  | [item] => newline level ++ prettyAt level item
  | item :: rest => newline level ++ prettyAt level item ++ "," ++ prettyItems level rest

def prettyMembers (level : Nat) : List (String × Json) → String
  | [] => ""
  | [(name, value)] => newline level ++ quoted name ++ ": " ++ prettyAt level value
  | (name, value) :: rest =>
    newline level ++ quoted name ++ ": " ++ prettyAt level value ++ "," ++ prettyMembers level rest

end

/-- The text of a value with one member or item on a line. -/
def prettyText (j : Json) : String := prettyAt 0 j

end Json

end Acme
