import Acme.Certificate.Basic
import Acme.Config
import Acme.Http.Header

/-!
# Setting up HTTP

Before a client can talk to a real server it needs the certificates that it trusts besides the usual
ones, and a name for itself that may stand in a header.

The files with certificates are texts with blocks in them, read more strictly than `Acme.Pem` reads
them where blocks begin and end, and less strictly in between: `sections` gives the blocks with a
label that is known, and none if one of them is not in order.
-/

namespace Acme.Http

/-- Why HTTP cannot be set up. -/
inductive SetupError
  /-- A file with certificates cannot be read. -/
  | roots (path : String)
  /-- A certificate or the name of the client is malformed. -/
  | malformed
  deriving DecidableEq, Repr

namespace Setup

/-! ### Sections -/

/-- The labels that are known. Blocks with other labels are passed over. -/
def labels : List Bytes :=
  ["CERTIFICATE", "PUBLIC KEY", "RSA PRIVATE KEY", "PRIVATE KEY", "EC PRIVATE KEY", "X509 CRL",
    "CERTIFICATE REQUEST", "ECHCONFIG"].map Bytes.ofText

/-- The lines of a text, with their ends. -/
def lines (b : Bytes) : List Bytes :=
  if b = [] then []
  else
    let line := b.takeWhile fun x => x != 10 && x != 13
    b.take (line.length + 1) :: lines (b.drop (line.length + 1))
termination_by b.length
decreasing_by
  have : 0 < b.length := List.length_pos_iff.2 ‹_›
  simp
  omega

/-- The label of a line that begins a section: it ends in five hyphens, between and after which
blanks do not count. -/
def label? (line : Bytes) : Option Bytes :=
  let tail := (line.reverse.takeWhile fun x => x == 45 || x == 10 || x == 13 || x == 32).reverse
  if tail.count 45 = 5 then
    let before := line.take (line.length - tail.length) ++ tail.takeWhile (· != 45)
    some (before.drop Pem.beginMark.length)
  else none

/-- The octets of a body. Padding may be left out, and blanks may stand anywhere. -/
def body? (b : Bytes) : Option Bytes := do
  let symbols := b.filter fun x => !Pem.isBlank x
  let kept := Base64.dropPadding symbols
  let padding := symbols.length - kept.length
  let values ← kept.mapM Base64.Alphabet.standard.value?
  let fits :=
    if padding = 0 then symbols.length % 4 ≠ 1 else symbols.length % 4 = 0 ∧ padding ≤ 2
  let size := kept.length * 6 / 8
  let spare := Nat.pow 2 (kept.length * 6 - size * 8)
  if fits then some (Bytes.ofNatWidth size (Base64.digits values / spare)) else none

/-- The sections of a text, given by its lines, with their labels. -/
def sectionsOf (begun : Option Bytes) (body : Bytes) : List Bytes → Option (List (Bytes × Bytes))
  | [] => if begun.isSome then none else some []
  | line :: rest =>
    if Pem.beginMark.isPrefixOf line then
      match label? line with
      | some label => sectionsOf (some label) body rest
      | none => none
    else
      match begun with
      | none => sectionsOf none body rest
      | some label =>
        if !(Pem.endMark ++ label ++ Pem.dashes).isPrefixOf line then
          sectionsOf begun (body ++ line) rest
        else if labels.contains label then
          match body? body with
          | some content => ((label, content) :: ·) <$> sectionsOf none [] rest
          | none => none
        else sectionsOf none [] rest

def sections (b : Bytes) : Option (List (Bytes × Bytes)) := sectionsOf none [] (lines b)

def certificates? (b : Bytes) : Option (List Certificate) := do
  let found := (← sections b).filter (·.1 == Bytes.ofText "CERTIFICATE")
  found.mapM (Certificate.ofDer? ·.2)

end Setup

def trusted (file? : String → Option Bytes) (path : String) :
    Except SetupError (List Certificate) := do
  let some b := file? path | throw (.roots path)
  let some certificates := Setup.certificates? b | throw .malformed
  return certificates

/-- Checks what a client needs: the files with certificates, and then its name. -/
def setUp (c : Config) (file? : String → Option Bytes) : Except SetupError Unit := do
  let _ ← c.trustedRoots.mapM (trusted file?)
  if !(Bytes.ofText c.userAgent).all Headers.isValueOctet then throw .malformed

end Acme.Http
