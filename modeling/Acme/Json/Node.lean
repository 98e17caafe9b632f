import Acme.Bytes

/-!
# JSON texts

A `Node` is a JSON text (RFC 8259) taken apart but not yet interpreted: it keeps the octets of its
numbers and strings as they were written. So a reader may pass over a member that it does not know
without asking whether the strings in it are well-formed text or its numbers fit any type.

`Node.read` is a machine that takes one octet at a time and keeps the arrays and objects that are
still open on a stack. It therefore always ends, and nesting may be as deep as the text is long.
-/

namespace Acme.Json

/-- A JSON text. Numbers and strings are kept as written, strings and names without their
quotation marks. -/
inductive Node
  | null
  | bool (value : Bool)
  | number (written : Bytes)
  | string (written : Bytes)
  | array (items : List Node)
  | object (members : List (Bytes × Node))

namespace Node

/-! ### Numbers -/

/-- How far a number has been read. -/
inductive NumberPart
  | sign
  | zero
  | whole
  | point
  | fraction
  | mark
  | markSign
  | exponent
  deriving DecidableEq, Repr

/-- Whether an octet is a decimal digit. -/
def isDigit (x : UInt8) : Bool := 48 ≤ x && x ≤ 57

/-- The part that an octet continues a number with. -/
def NumberPart.next? (p : NumberPart) (x : UInt8) : Option NumberPart :=
  let mark := x == 101 || x == 69
  match p with
  | sign => if x = 48 then some zero else if isDigit x then some whole else none
  | zero => if x = 46 then some point else if mark then some .mark else none
  | whole =>
    if isDigit x then some whole else if x = 46 then some point else if mark then some .mark else none
  | point => if isDigit x then some fraction else none
  | fraction => if isDigit x then some fraction else if mark then some .mark else none
  | .mark =>
    if isDigit x then some exponent else if x = 43 || x = 45 then some markSign else none
  | markSign | exponent => if isDigit x then some exponent else none

/-- Whether a number may end after this part. -/
def NumberPart.complete : NumberPart → Bool
  | zero | whole | fraction | exponent => true
  | sign | point | mark | markSign => false

/-! ### The machine -/

/-- An array or object that is still open: what it holds so far, the latest first, and the name
that a value is awaited for. -/
inductive Frame
  | array (done : List Node)
  | object (done : List (Bytes × Node))
  | member (done : List (Bytes × Node)) (name : Bytes)

/-- Where in a string the machine stands: between characters, after a backslash, or before that
many hexadecimal digits. -/
inductive StringPart
  | plain
  | escape
  | hex (left : Nat)

inductive Awaited
  /-- A value. -/
  | value
  /-- The first item of an array, or its end. -/
  | firstItem
  /-- The first name of an object, or its end. -/
  | firstName
  /-- A further name. -/
  | name
  /-- The colon after a name. -/
  | colon (name : Bytes)
  /-- The rest of a string, `written` being the octets so far in reverse. -/
  | string (isName : Bool) (part : StringPart) (written : Bytes)
  /-- The rest of a number. -/
  | number (part : NumberPart) (written : Bytes)
  /-- The rest of a word that stands for `node`. -/
  | word (left : Bytes) (node : Node)
  /-- A comma or the end of the innermost array or object. -/
  | after
  /-- Nothing: the text is complete. -/
  | nothing (node : Node)

structure Machine where
  stack : List Frame
  awaited : Awaited

/-- Nothing read yet. -/
def Machine.start : Machine := ⟨[], .value⟩

/-- Puts a complete value where it was awaited. -/
def Machine.deliver (node : Node) : List Frame → Option Machine
  | [] => some ⟨[], .nothing node⟩
  | .array done :: rest => some ⟨.array (node :: done) :: rest, .after⟩
  | .member done name :: rest => some ⟨.object ((name, node) :: done) :: rest, .after⟩
  | .object _ :: _ => none

def isSpace (x : UInt8) : Bool := x == 32 || x == 10 || x == 13 || x == 9

/-- The first octet of a value. -/
def Machine.begin (stack : List Frame) (x : UInt8) : Option Machine :=
  match x with
  | 34 => some ⟨stack, .string false .plain []⟩
  | 91 => some ⟨.array [] :: stack, .firstItem⟩
  | 123 => some ⟨.object [] :: stack, .firstName⟩
  | 110 => some ⟨stack, .word [117, 108, 108] .null⟩
  | 116 => some ⟨stack, .word [114, 117, 101] (.bool true)⟩
  | 102 => some ⟨stack, .word [97, 108, 115, 101] (.bool false)⟩
  | 45 => some ⟨stack, .number .sign [x]⟩
  | _ => (NumberPart.sign.next? x).map fun part => ⟨stack, .number part [x]⟩

/-- An octet after a complete value. -/
def Machine.afterValue (stack : List Frame) (x : UInt8) : Option Machine :=
  match stack, x with
  | .array _ :: _, 44 => some ⟨stack, .value⟩
  | .array done :: rest, 93 => deliver (.array done.reverse) rest
  | .object _ :: _, 44 => some ⟨stack, .name⟩
  | .object done :: rest, 125 => deliver (.object done.reverse) rest
  | _, _ => if isSpace x then some ⟨stack, .after⟩ else none

/-- Whether an octet may follow a backslash, except for the one that announces digits. -/
def isEscape (x : UInt8) : Bool := [34, 92, 47, 98, 102, 110, 114, 116].contains x

/-- Whether an octet is a hexadecimal digit. -/
def isHexDigit (x : UInt8) : Bool :=
  isDigit x || (97 ≤ x && x ≤ 102) || (65 ≤ x && x ≤ 70)

/-- An octet inside a string. -/
def Machine.inString (stack : List Frame) (isName : Bool) (written : Bytes) (x : UInt8) :
    StringPart → Option Machine
  | .plain =>
    if x = 34 then
      if isName then some ⟨stack, .colon written.reverse⟩ else deliver (.string written.reverse) stack
    else if x < 32 then none
    else some ⟨stack, .string isName (if x = 92 then .escape else .plain) (x :: written)⟩
  | .escape =>
    if x = 117 then some ⟨stack, .string isName (.hex 3) (x :: written)⟩
    else if isEscape x then some ⟨stack, .string isName .plain (x :: written)⟩
    else none
  | .hex left =>
    if isHexDigit x then
      some ⟨stack, .string isName (if left = 0 then .plain else .hex (left - 1)) (x :: written)⟩
    else none

/-- Takes in one octet. -/
def Machine.step (m : Machine) (x : UInt8) : Option Machine :=
  let stack := m.stack
  match m.awaited with
  | .value => if isSpace x then some m else begin stack x
  | .firstItem =>
    if isSpace x then some m
    else if x = 93 then
      match stack with
      | .array _ :: rest => deliver (.array []) rest
      | _ => none
    else begin stack x
  | .firstName =>
    if isSpace x then some m
    else if x = 34 then some ⟨stack, .string true .plain []⟩
    else if x = 125 then
      match stack with
      | .object _ :: rest => deliver (.object []) rest
      | _ => none
    else none
  | .name =>
    if isSpace x then some m
    else if x = 34 then some ⟨stack, .string true .plain []⟩
    else none
  | .colon name =>
    if isSpace x then some m
    else if x = 58 then
      match stack with
      | .object done :: rest => some ⟨.member done name :: rest, .value⟩
      | _ => none
    else none
  | .string isName part written => inString stack isName written x part
  | .number part written =>
    match part.next? x with
    | some next => some ⟨stack, .number next (x :: written)⟩
    | none =>
      if part.complete then
        match deliver (.number written.reverse) stack with
        | some ⟨_, .nothing node⟩ => if isSpace x then some ⟨[], .nothing node⟩ else none
        | some ⟨stack, _⟩ => afterValue stack x
        | none => none
      else none
  | .word [] _ => none
  | .word [last] node => if x = last then deliver node stack else none
  | .word (next :: left) node => if x = next then some ⟨stack, .word left node⟩ else none
  | .after => afterValue stack x
  | .nothing _ => if isSpace x then some m else none

/-- The complete text, if nothing is missing. -/
def Machine.finish (m : Machine) : Option Node :=
  match m.awaited, m.stack with
  | .nothing node, _ => some node
  | .number part written, [] => if part.complete then some (.number written.reverse) else none
  | _, _ => none

/-- The JSON text that octets write. Nothing but white space may stand around it. -/
def read (b : Bytes) : Option Node := (b.foldlM Machine.step .start).bind Machine.finish

end Node

end Acme.Json
