import Acme.Text.CaseData

/-!
# Lower case

The lower-case form of a text, by the rules of the Unicode standard that hold in every language.
All characters are mapped one by one; only the capital sigma looks at its neighbours, because it
has a form of its own at the end of a word.
-/

namespace Acme.Text

/-- The lower-case form of a character on its own. The capital I with a dot keeps its dot as a
combining character. -/
def lowerChar (c : Char) : List Char :=
  if c.toNat < 128 then [c.toLower]
  else if c = '\u0130' then ['i', '\u0307']
  else
    match caseRuns.find? fun r =>
        r.first ≤ c.toNat && c.toNat ≤ r.last && (c.toNat - r.first) % r.step == 0 with
    | some r => [Char.ofNat (c.toNat + r.shift).toNat]
    | none => [c]

/-- Whether a cased character follows, possibly after characters that do not separate letters. -/
def casedFollows (cs : List Char) : Bool :=
  match cs.dropWhile caseIgnorable.mem with
  | c :: _ => cased.mem c
  | [] => false

/-- The lower-case form of characters that stand after `before`, which is given in reverse. -/
def lowerFrom : (before : List Char) → List Char → List Char
  | _, [] => []
  | before, c :: rest =>
    (if c = 'Σ' then
      [if casedFollows before && !casedFollows rest then 'ς' else 'σ']
    else lowerChar c) ++ lowerFrom (c :: before) rest

def lowercase (s : String) : String := String.ofList (lowerFrom [] s.toList)

end Acme.Text
