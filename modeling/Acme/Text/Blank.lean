import Acme.Text.CharSet

/-!
# White space

The characters with the property White_Space of the Unicode Character Database, and texts that
consist of nothing else.
-/

namespace Acme.Text

/-- The white space characters. -/
def blank : CharSet :=
  ⟨[0x9, 0xe, 0x20, 0x21, 0x85, 0x86, 0xa0, 0xa1, 0x1680, 0x1681, 0x2000, 0x200b, 0x2028, 0x202a,
    0x202f, 0x2030, 0x205f, 0x2060, 0x3000, 0x3001]⟩

/-- Whether a text is empty but for white space. -/
def isBlank (s : String) : Bool := s.toList.all blank.mem

/-- Drops white space at the start. -/
def dropBlank (cs : List Char) : List Char := cs.dropWhile blank.mem

end Acme.Text
