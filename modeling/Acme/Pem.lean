import Acme.Base64

/-!
# Text blocks

Keys and certificates are handed around as texts (RFC 7468): octets in base64 between a line that
begins a block and one that ends it, both of which carry a label.

Reading goes through a text line by line. What stands outside of blocks is passed over, and so is
white space at the ends of lines. A block that is begun but not in order is not passed over but
reported: `blocks` has one entry for every line that begins a block. Lines before an empty line
inside a block are its header.

An overlong line counts as several (`pieceLimit`), and what follows an empty line has to stand in
lines of equal length (`bodyWidth`).
-/

namespace Acme.Pem

structure Block where
  label : Bytes
  /-- The octets of the lines before an empty line. -/
  header : Bytes
  content : Bytes
  deriving DecidableEq, Repr

/-! ### Lines -/

/-- A line, or a part of an overlong one, without white space at its end. -/
structure Piece where
  text : Bytes
  /-- Whether it goes on with the line of the piece before it. -/
  continued : Bool

/-- The greatest length of a piece. -/
def pieceLimit : Nat := 254

/-- Drops everything at the end that is not visible ASCII. -/
def dropTrailing (b : Bytes) : Bytes :=
  (b.reverse.dropWhile fun x => x ≤ 32 || 128 ≤ x).reverse

/-- The part of a line that counts: up to a zero octet, without white space at its end. -/
def trimmed (b : Bytes) : Bytes := (dropTrailing b).takeWhile (· != 0)

/-- The lines of a text. -/
def pieces (continued : Bool) (b : Bytes) : List Piece :=
  if b = [] then []
  else
    let line := b.takeWhile (· != 10)
    if line.length < pieceLimit then
      ⟨trimmed line, continued⟩ :: pieces false (b.drop (line.length + 1))
    else ⟨trimmed (b.take pieceLimit), continued⟩ :: pieces true (b.drop pieceLimit)
termination_by b.length
decreasing_by
  all_goals
    have : 0 < b.length := List.length_pos_iff.2 ‹_›
    simp [pieceLimit]
    omega

/-! ### Boundaries -/

/-- The start of a line that begins a block. -/
def beginMark : Bytes := Bytes.ofText "-----BEGIN "

/-- The start of a line that ends a block. -/
def endMark : Bytes := Bytes.ofText "-----END "

/-- The end of both lines. -/
def dashes : Bytes := Bytes.ofText "-----"

/-- The octets that may stand in front of a text to say that it is UTF-8. -/
def byteOrderMark : Bytes := [0xef, 0xbb, 0xbf]

def after? (mark b : Bytes) : Option Bytes :=
  if mark.isPrefixOf b then some (b.drop mark.length) else none

/-- The label of a line that begins a block. -/
def label? (line : Bytes) : Option Bytes :=
  match after? beginMark line with
  | some rest => if dashes.isSuffixOf rest then some (rest.take (rest.length - 5)) else none
  | none => none

/-- The first line that begins a block, given by its label, and the lines after it. The mark of
UTF-8 may stand in front of the first line. -/
def search (isFirst : Bool) : List Piece → Option (Bytes × List Piece)
  | [] => none
  | piece :: rest =>
    let line := if isFirst then (after? byteOrderMark piece.text).getD piece.text else piece.text
    match label? line with
    | some label => some (label, rest)
    | none => search false rest

theorem length_of_search {isFirst : Bool} {ps rest : List Piece} {label : Bytes}
    (h : search isFirst ps = some (label, rest)) : rest.length < ps.length := by
  induction ps generalizing isFirst with
  | nil => simp [search] at h
  | cons p ps ih =>
    simp only [search] at h
    split at h
    · simp only [Option.some.injEq, Prod.mk.injEq] at h
      simp [← h.2]
    · have := ih h
      simp; omega

/-! ### Bodies -/

/-- Whether an octet is white space inside a body. -/
def isBlank (x : UInt8) : Bool := x == 32 || x == 9 || x == 10 || x == 13

/-- The octets of a body. It ends at the first hyphen; whole groups of four symbols have to stand
before it, at most the last two of which are padding. -/
def body? (lines : List Bytes) : Option Bytes := do
  let symbols := (lines.flatten.takeWhile (· != 45)).filter fun x => !isBlank x
  let kept := Base64.dropPadding symbols
  let padding := symbols.length - kept.length
  let values ← kept.mapM Base64.Alphabet.standard.value?
  if symbols.length % 4 = 0 ∧ padding ≤ 2 ∧ symbols ≠ [] then
    some (Bytes.ofNatWidth (symbols.length / 4 * 3 - padding)
      (Base64.digits (values ++ List.replicate padding 0) / Bytes.capacity padding))
  else none

/-- The length of all lines but the last after an empty line. -/
def bodyWidth : Nat := 64

/-- What has been read of a block. -/
structure Partial where
  /-- The lines before an empty line, if there was one. -/
  header : Option (List Bytes)
  lines : List Bytes
  /-- Whether a line was so short that it has to be the last. -/
  ended : Bool

def Partial.finish? (s : Partial) (label : Bytes) : Option Block := do
  let content ← body? s.lines
  return { label, header := (s.header.getD []).flatten, content }

/-- The block with a label that goes on with these lines, if it is in order, and the lines after
what has been looked at. -/
def block (label : Bytes) : Partial → List Piece → Option Block × List Piece
  | _, [] => (none, [])
  | s, piece :: rest =>
    let line := piece.text
    if line = [] then
      if piece.continued then block label s rest
      else if s.header.isSome then (none, rest)
      else block label { header := some s.lines, lines := [], ended := false } rest
    else if endMark.isPrefixOf line then
      (if line = endMark ++ label ++ dashes then s.finish? label else none, rest)
    else if s.ended then (none, rest)
    else if s.header.isNone then block label { s with lines := s.lines ++ [line] } rest
    else if bodyWidth < line.length then (none, rest)
    else block label { s with lines := s.lines ++ [line], ended := line.length < bodyWidth } rest

theorem length_block_le (label : Bytes) (s : Partial) (ps : List Piece) :
    (block label s ps).2.length ≤ ps.length := by
  induction ps generalizing s with
  | nil => simp [block]
  | cons p ps ih =>
    have := fun s => Nat.le_succ_of_le (ih s)
    simp only [block]
    repeat' split
    all_goals first | exact this _ | simp

/-- The blocks that are begun in lines. -/
def blocksOf (ps : List Piece) : List (Option Block) :=
  match _h : search true ps with
  | none => []
  | some (label, rest) =>
    let next := block label { header := none, lines := [], ended := false } rest
    next.1 :: blocksOf next.2
termination_by ps.length
decreasing_by exact Nat.lt_of_le_of_lt (length_block_le _ _ _) (length_of_search _h)

/-- The blocks that are begun in a text; one that is not in order is none. -/
def blocks (b : Bytes) : List (Option Block) := blocksOf (pieces false b)

/-! ### Writing -/

/-- A text in lines of 64 characters. -/
def wrapped (cs : List Char) : List Char :=
  if cs = [] then [] else cs.take bodyWidth ++ '\n' :: wrapped (cs.drop bodyWidth)
termination_by cs.length
decreasing_by
  have : 0 < cs.length := List.length_pos_iff.2 ‹_›
  simp [bodyWidth]
  omega

def text (label : String) (content : Bytes) : String :=
  "-----BEGIN " ++ label ++ "-----\n"
    ++ String.ofList (wrapped (Base64.toStandard content).toList)
    ++ "-----END " ++ label ++ "-----\n"

end Acme.Pem
