import Acme.Pem
import Acme.Proofs.Der
import Mathlib.Data.List.TakeWhile

/-!
# Text blocks are read as they were written

A text that `Pem.text` writes is a list of lines (`ofText_text`), and the lines are found again
(`pieces_lines`). Between the first and the last stand the symbols of the content, which are read as one
number (`body?_of_flatten`), however they are spread over lines. So the text has one block, the one that
was written (`blocks_text`).
-/

namespace Acme.Pem

/-! ### Symbols -/

/-- An octet that is neither white space nor a hyphen, so that it belongs to a body. -/
def Solid (x : UInt8) : Prop := 32 < x ∧ x < 128 ∧ x ≠ 45

instance (x : UInt8) : Decidable (Solid x) := inferInstanceAs (Decidable (_ ∧ _))

theorem solid_symbol (n : Nat) : Solid (Base64.Alphabet.standard.symbol n) := by
  have hmod : Base64.Alphabet.standard.symbol n = Base64.Alphabet.standard.symbol (n % 64) := by
    simp [Base64.Alphabet.symbol]
  have hdigit : ∀ d : Fin 64, Solid (Base64.Alphabet.standard.symbol d) := by decide
  rw [hmod]
  exact hdigit ⟨n % 64, Nat.mod_lt _ (by decide)⟩

theorem solid_of_mem_encode {b : Bytes} {x : UInt8} (h : x ∈ Base64.encode .standard b) : Solid x := by
  obtain ⟨ns, padding, groups, hwritten⟩ := Base64.exists_written b
  rw [hwritten.encode_eq] at h
  rcases List.mem_append.mp h with h | h
  · obtain ⟨n, -, rfl⟩ := List.mem_map.mp h
    exact solid_symbol n
  · obtain rfl := List.eq_of_mem_replicate h
    decide

theorem solid_of_mem_line {lines : List Bytes} {b : Bytes}
    (hlines : lines.flatten = Base64.encode .standard b) {line : Bytes} (hline : line ∈ lines) {x : UInt8}
    (hx : x ∈ line) : Solid x := by
  have hmem : x ∈ lines.flatten := List.mem_flatten.mpr ⟨line, hline, hx⟩
  rw [hlines] at hmem
  exact solid_of_mem_encode hmem

theorem Solid.not_blank {x : UInt8} (h : Solid x) : isBlank x = false := by
  obtain ⟨hlow, -, -⟩ := h
  simp only [isBlank, Bool.or_eq_false_iff, beq_eq_false_iff_ne]
  refine ⟨⟨⟨?_, ?_⟩, ?_⟩, ?_⟩ <;>
  · rintro rfl
    exact absurd hlow (by decide)

/-! ### Bodies -/

section

variable {b : Bytes} {ns : List Nat} {padding groups : Nat} (h : Base64.Written b ns padding groups)

include h

theorem length_written : (Base64.encode .standard b).length = 4 * groups := by
  rw [h.encode_eq, List.length_append, List.length_map, List.length_replicate, h.symbols]

theorem dropPadding_written :
    Base64.dropPadding (Base64.encode .standard b) = ns.map Base64.Alphabet.standard.symbol := by
  have hsymbols : ∀ x ∈ ns.map Base64.Alphabet.standard.symbol, x ≠ Base64.pad := by
    intro x hx
    obtain ⟨n, -, rfl⟩ := List.mem_map.mp hx
    exact (Base64.symbol_spec .standard n).2.2
  rw [h.encode_eq, Base64.dropPadding, List.reverse_append, List.reverse_replicate,
    List.dropWhile_append_of_pos]
  · exact Base64.dropPadding_of_ne_pad hsymbols
  · intro x hx
    rw [List.eq_of_mem_replicate hx]
    rfl

end

theorem mapM_value?_symbol (ns : List Nat) :
    (ns.map Base64.Alphabet.standard.symbol).mapM Base64.Alphabet.standard.value?
      = some (ns.map (· % 64)) := by
  rw [mapM_eq_some_iff, List.map_map, List.map_map]
  exact List.map_congr_left fun n _ => (Base64.symbol_spec .standard n).1

/-- Nothing is passed over, and nothing ends the body early. -/
theorem symbols_of_solid {symbols : Bytes} (h : ∀ x ∈ symbols, Solid x) :
    (symbols.takeWhile (· != 45)).filter (fun x => !isBlank x) = symbols := by
  rw [List.takeWhile_eq_self_iff.mpr, List.filter_eq_self.mpr]
  · intro x hx
    rw [(h x hx).not_blank]
    rfl
  · intro x hx
    exact bne_iff_ne.mpr (h x hx).2.2

/-- The symbols of octets are read as the octets, whatever lines they stand in. -/
theorem body?_of_flatten {lines : List Bytes} {b : Bytes}
    (hlines : lines.flatten = Base64.encode .standard b) (hb : b ≠ []) : body? lines = some b := by
  obtain ⟨ns, padding, groups, h⟩ := Base64.exists_written b
  have hpos := List.length_pos_iff.mpr hb
  have hsymbols := h.symbols
  have hoctets := h.octets
  have hlength := length_written h
  have hwhole := symbols_of_solid fun x (hx : x ∈ Base64.encode .standard b) => solid_of_mem_encode hx
  have hpadding : (Base64.encode .standard b).length - (ns.map Base64.Alphabet.standard.symbol).length
      = padding := by
    rw [List.length_map]
    omega
  -- the number of octets is told by the number of symbols and the padding
  have hwidth : (Base64.encode .standard b).length / 4 * 3 - padding = b.length := by omega
  have hfine : (Base64.encode .standard b).length % 4 = 0 ∧ padding ≤ 2
      ∧ Base64.encode .standard b ≠ [] :=
    ⟨by omega, h.padding_le, List.length_pos_iff.mp (by omega)⟩
  have hnumber : Bytes.toNat b * Bytes.capacity padding / Bytes.capacity padding = Bytes.toNat b :=
    Nat.mul_div_cancel _ (Bytes.capacity_pos padding)
  rw [body?]
  simp only [hlines, hwhole, dropPadding_written h, hpadding, mapM_value?_symbol, Option.bind_eq_bind,
    Option.bind_some, if_pos hfine, hwidth, h.digits_eq, hnumber, Bytes.ofNatWidth_toNat]

/-! ### Lines -/

/-- A line that is found again. -/
structure Clean (line : Bytes) : Prop where
  short : line.length < pieceLimit
  whole : ∀ x ∈ line, x ≠ 10
  trimmed : trimmed line = line

theorem trimmed_of_getLast (line : Bytes) {x : UInt8} (hx : 32 < x ∧ x < 128)
    (hzero : ∀ y ∈ line ++ [x], y ≠ 0) : trimmed (line ++ [x]) = line ++ [x] := by
  have hvisible : (decide (x ≤ 32) || decide (128 ≤ x)) = false := by
    rw [Bool.or_eq_false_iff, decide_eq_false_iff_not, decide_eq_false_iff_not, UInt8.not_le,
      UInt8.not_le]
    exact hx
  have hkept : dropTrailing (line ++ [x]) = line ++ [x] := by
    simp [dropTrailing, hvisible]
  rw [trimmed, hkept, List.takeWhile_eq_self_iff]
  intro y hy
  exact bne_iff_ne.mpr (hzero y hy)

theorem clean_of_solid {line : Bytes} (hline : line ≠ [] ∧ line.length ≤ bodyWidth)
    (h : ∀ x ∈ line, Solid x) : Clean line where
  short := Nat.lt_of_le_of_lt hline.2 (by decide)
  whole := by
    rintro x hx rfl
    exact absurd (h _ hx).1 (by decide)
  trimmed := by
    have hlast := h _ (List.getLast_mem hline.1)
    have hsplit : line.dropLast ++ [line.getLast hline.1] = line := List.dropLast_concat_getLast _
    have hsame := trimmed_of_getLast line.dropLast ⟨hlast.1, hlast.2.1⟩
    rw [hsplit] at hsame
    refine hsame ?_
    rintro x hx rfl
    exact absurd (h _ hx).1 (by decide)

/-- The lines of a text that is made of lines. -/
theorem pieces_lines {lines : List Bytes} (h : ∀ line ∈ lines, Clean line) :
    pieces false (lines.flatMap (· ++ [10])) = lines.map (Piece.mk · false) := by
  induction lines with
  | nil =>
    rw [List.flatMap_nil, pieces]
    rfl
  | cons line lines ih =>
    obtain ⟨hshort, hwhole, htrimmed⟩ := h line List.mem_cons_self
    have hline : (line ++ [10] ++ lines.flatMap (· ++ [10])).takeWhile (· != 10) = line := by
      rw [List.append_assoc, List.takeWhile_append_of_pos fun x hx => bne_iff_ne.mpr (hwhole x hx)]
      simp
    have hrest : (line ++ [10] ++ lines.flatMap (· ++ [10])).drop (line.length + 1)
        = lines.flatMap (· ++ [10]) := List.drop_left' (by simp)
    have hne : line ++ [10] ++ lines.flatMap (· ++ [10]) ≠ [] := by simp
    rw [List.flatMap_cons, pieces, if_neg hne]
    simp only [hline, if_pos hshort, htrimmed, hrest, List.map_cons]
    rw [ih fun l hl => h l (List.mem_cons_of_mem _ hl)]

/-- Octets in lines of a width: what `wrapped` does to their characters. -/
theorem exists_wrapped (b : Bytes) :
    ∃ lines : List Bytes, lines.flatten = b
      ∧ (∀ line ∈ lines, line ≠ [] ∧ line.length ≤ bodyWidth)
      ∧ wrapped (b.map fun x => Char.ofNat x.toNat)
        = (lines.flatMap (· ++ [10])).map fun x => Char.ofNat x.toNat := by
  induction hn : b.length using Nat.strongRecOn generalizing b with
  | ind n ih =>
    by_cases hb : b = []
    · subst hb
      refine ⟨[], rfl, by simp, ?_⟩
      rw [List.map_nil, wrapped, if_pos rfl]
      rfl
    · have hpos : 0 < b.length := List.length_pos_iff.mpr hb
      -- by induction on the length, as a line is taken off each time
      have hshorter : (b.drop bodyWidth).length < n := by
        rw [List.length_drop, bodyWidth]
        omega
      obtain ⟨lines, hflatten, hwidth, hwrapped⟩ := ih _ hshorter (b.drop bodyWidth) rfl
      refine ⟨b.take bodyWidth :: lines, ?_, ?_, ?_⟩
      · rw [List.flatten_cons, hflatten, List.take_append_drop]
      · intro line hline
        rcases List.mem_cons.mp hline with rfl | hline
        · refine ⟨?_, List.length_take_le _ _⟩
          rw [← List.length_pos_iff, List.length_take, bodyWidth]
          omega
        · exact hwidth line hline
      · have hne : b.map (fun x => Char.ofNat x.toNat) ≠ [] := by simpa using hb
        rw [wrapped, if_neg hne, ← List.map_take, ← List.map_drop, hwrapped, List.flatMap_cons,
          List.map_append, List.map_append]
        simp

/-! ### Whole texts -/

/-- The line that begins a block. -/
def beginLine (label : Bytes) : Bytes := beginMark ++ label ++ dashes

/-- The line that ends it. -/
def endLine (label : Bytes) : Bytes := endMark ++ label ++ dashes

/-- What is written is the lines of the body between the two that carry the label. -/
theorem ofText_text (label : String) (content : Bytes) :
    ∃ lines : List Bytes, lines.flatten = Base64.encode .standard content
      ∧ (∀ line ∈ lines, line ≠ [] ∧ line.length ≤ bodyWidth)
      ∧ Bytes.ofText (text label content)
        = (beginLine (Bytes.ofText label) :: lines ++ [endLine (Bytes.ofText label)]).flatMap
          (· ++ [10]) := by
  obtain ⟨lines, hflatten, hwidth, hwrapped⟩ := exists_wrapped (Base64.encode .standard content)
  refine ⟨lines, hflatten, hwidth, ?_⟩
  -- the body is in ASCII, so its characters are its octets
  have hascii : ∀ x ∈ lines.flatMap (· ++ [10]), x < 128 := by
    intro x hx
    obtain ⟨line, hline, hx⟩ := List.mem_flatMap.mp hx
    rcases List.mem_append.mp hx with hx | hx
    · exact (solid_of_mem_line hflatten hline hx).2.1
    · obtain rfl := List.mem_singleton.mp hx
      decide
  have hbody : Bytes.ofText (String.ofList (wrapped (Base64.toStandard content).toList))
      = lines.flatMap (· ++ [10]) := by
    rw [Base64.toStandard, Bytes.asciiText, String.toList_ofList, hwrapped]
    exact Bytes.ofText_asciiText hascii
  have hend : Bytes.ofText "-----\n" = dashes ++ [10] := by decide +kernel
  rw [text]
  simp only [Bytes.ofText_append, hbody, hend, beginLine, endLine, beginMark, endMark, List.cons_append,
    List.flatMap_cons, List.flatMap_append, List.flatMap_nil, List.append_nil, List.append_assoc]

theorem after?_append (mark b : Bytes) : after? mark (mark ++ b) = some b := by
  have hprefix : mark.isPrefixOf (mark ++ b) := List.isPrefixOf_iff_prefix.mpr (List.prefix_append _ _)
  rw [after?, if_pos hprefix, List.drop_left]

theorem label?_beginLine (label : Bytes) : label? (beginLine label) = some label := by
  have hsuffix : dashes.isSuffixOf (label ++ dashes) :=
    List.isSuffixOf_iff_suffix.mpr (List.suffix_append _ _)
  have hlength : (label ++ dashes).length - 5 = label.length := by
    rw [List.length_append]
    rfl
  rw [label?, beginLine, List.append_assoc, after?_append]
  simp only [hsuffix, if_true, hlength, List.take_left']

theorem search_beginLine (label : Bytes) (ps : List Piece) :
    search true (⟨beginLine label, false⟩ :: ps) = some (label, ps) := by
  have hmark : after? byteOrderMark (beginLine label) = none := rfl
  rw [search]
  simp only [if_true, hmark, Option.getD_none, label?_beginLine]

/-- Lines that do not begin with a hyphen go into the body, up to the line that ends the block. -/
theorem block_lines (label : Bytes) {lines : List Bytes}
    (h : ∀ line ∈ lines, line ≠ [] ∧ ∀ x ∈ line, Solid x) (before : List Bytes) (ps : List Piece) :
    block label { header := none, lines := before, ended := false }
        (lines.map (Piece.mk · false) ++ ⟨endLine label, false⟩ :: ps)
      = (Partial.finish? { header := none, lines := before ++ lines, ended := false } label, ps) := by
  induction lines generalizing before with
  | nil =>
    have hne : endLine label ≠ [] := List.cons_ne_nil _ _
    have hprefix : endMark.isPrefixOf (endLine label) := by
      rw [endLine, List.append_assoc]
      exact List.isPrefixOf_iff_prefix.mpr (List.prefix_append _ _)
    rw [List.map_nil, List.nil_append, block]
    simp only [if_neg hne, if_pos hprefix, List.append_nil]
    rw [if_pos (endLine.eq_1 label)]
  | cons line lines ih =>
    obtain ⟨hne, hsolid⟩ := h line List.mem_cons_self
    have hprefix : ¬ endMark.isPrefixOf line := by
      obtain ⟨x, rest, rfl⟩ := List.exists_cons_of_ne_nil hne
      intro hprefix
      obtain ⟨more, hmore⟩ := List.isPrefixOf_iff_prefix.mp hprefix
      -- a line of the body has symbols only, and a hyphen is none
      have hhyphen : (45 : UInt8) = x := (List.cons.inj hmore).1
      exact (hsolid x List.mem_cons_self).2.2 hhyphen.symm
    rw [List.map_cons, List.cons_append, block]
    simp only [if_neg hne, if_neg hprefix, Option.isNone_none, if_true, Bool.false_eq_true, if_false]
    rw [ih fun l hl => h l (List.mem_cons_of_mem _ hl), List.append_assoc, List.singleton_append]

/-- A text that is written has one block, and that is what was written. -/
theorem blocks_text {label : String} {content : Bytes} (hcontent : content ≠ [])
    (hbegin : Clean (beginLine (Bytes.ofText label))) (hend : Clean (endLine (Bytes.ofText label))) :
    blocks (Bytes.ofText (text label content))
      = [some { label := Bytes.ofText label, header := [], content }] := by
  obtain ⟨lines, hflatten, hwidth, htext⟩ := ofText_text label content
  have hsolid : ∀ line ∈ lines, ∀ x ∈ line, Solid x := fun _ hline _ hx =>
    solid_of_mem_line hflatten hline hx
  have hclean : ∀ line ∈ beginLine (Bytes.ofText label) :: lines ++ [endLine (Bytes.ofText label)],
      Clean line := by
    intro line hline
    rcases List.mem_append.mp hline with hline | hline
    · rcases List.mem_cons.mp hline with rfl | hline
      · exact hbegin
      · exact clean_of_solid (hwidth line hline) (hsolid line hline)
    · obtain rfl := List.mem_singleton.mp hline
      exact hend
  -- no line of the body ends the block, and the last line does
  have hblock := block_lines (Bytes.ofText label)
    (fun line hline => ⟨(hwidth line hline).1, hsolid line hline⟩) [] []
  have hbody : body? lines = some content := body?_of_flatten hflatten hcontent
  have hnothing : blocksOf [] = [] := by
    rw [blocksOf]
    rfl
  rw [blocks, htext, pieces_lines hclean, List.map_append, List.map_cons, List.cons_append, blocksOf]
  split
  · rename_i hnone
    -- the first line is where the block begins
    rw [search_beginLine] at hnone
    cases hnone
  · rename_i found rest hsome
    rw [search_beginLine] at hsome
    cases hsome
    simp only [List.map_cons, List.map_nil, hblock, hnothing, Partial.finish?, List.nil_append, hbody]
    rfl

end Acme.Pem
