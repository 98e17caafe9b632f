import Acme.Proofs.Json.Reading

/-!
# Reading texts with white space

`Json.prettyText` puts line breaks and spaces between the parts of a value. Wherever it does, the
machine of `Node.read` stays as it is (`readFrom_newline`), so the text is read as the same written
form as the one without white space (`read_prettyText`).
-/

namespace Acme.Json.Node

/-- White space is skipped where a machine awaits it. -/
def Skips (m : Machine) : Prop := ∀ x, isSpace x → m.step x = some m

theorem readFrom_spaces {m : Machine} (hm : Skips m) {b : Bytes} (hb : ∀ x ∈ b, isSpace x)
    (tail : Bytes) : readFrom m (b ++ tail) = readFrom m tail := by
  induction b with
  | nil => rfl
  | cons x b ih =>
    rw [List.cons_append, readFrom_step (hm x (hb x (by simp))), ih fun y hy => hb y (by simp [hy])]

theorem isSpace_newline (level : Nat) : ∀ x ∈ Bytes.ofText (newline level), isSpace x := by
  have hbreak : String.utf8EncodeChar '\n' = [10] := by decide
  have hspace : String.utf8EncodeChar ' ' = [32] := by decide
  intro x hx
  rw [newline, Bytes.ofText_ofList, List.flatMap_cons, hbreak, List.mem_append] at hx
  rcases hx with hx | hx
  · rw [List.mem_singleton] at hx
    subst hx
    decide
  · obtain ⟨c, hc, hx⟩ := List.mem_flatMap.mp hx
    rw [List.eq_of_mem_replicate hc, hspace, List.mem_singleton] at hx
    subst hx
    decide

theorem readFrom_newline {m : Machine} (hm : Skips m) (level : Nat) (tail : Bytes) :
    readFrom m (Bytes.ofText (newline level) ++ tail) = readFrom m tail :=
  readFrom_spaces hm (isSpace_newline level) tail

/-! ### Where white space is skipped -/

variable (stack : List Frame)

theorem skips_value : Skips ⟨stack, .value⟩ := by
  intro x hx
  simp [Machine.step, hx]

theorem skips_firstItem : Skips ⟨stack, .firstItem⟩ := by
  intro x hx
  simp [Machine.step, hx]

theorem skips_name {awaited : Awaited} (h : awaited = .firstName ∨ awaited = .name) :
    Skips ⟨stack, awaited⟩ := by
  intro x hx
  rcases h with rfl | rfl <;> simp [Machine.step, hx]

/-- After a value, neither the comma nor an end is white space. -/
theorem skips_after : Skips ⟨stack, .after⟩ := by
  intro x hx
  show Machine.afterValue stack x = _
  unfold Machine.afterValue
  split
  · exact absurd hx (by decide)
  · exact absurd hx (by decide)
  · exact absurd hx (by decide)
  · exact absurd hx (by decide)
  · rw [if_pos hx]

/-! ### Values -/

theorem prettyAt_head (level : Nat) (j : Json) {room : Nat} (h : Fits room j) :
    ∃ x b, Bytes.ofText (prettyAt level j) = x :: b ∧ isSpace x = false ∧ x ≠ 93 := by
  cases j with
  | null => exact ⟨110, [117, 108, 108], by rw [prettyAt]; decide, by decide⟩
  | bool b =>
    cases b with
    | true => exact ⟨116, [114, 117, 101], by rw [prettyAt]; decide, by decide⟩
    | false => exact ⟨102, [97, 108, 115, 101], by rw [prettyAt]; decide, by decide⟩
  -- numbers are not among the values that fit
  | number n => simp [Fits] at h
  | string s => exact ⟨34, _, by rw [prettyAt, ofText_quoted]; rfl, by decide⟩
  | array items =>
    cases items with
    | nil => exact ⟨91, [93], by rw [prettyAt]; decide, by decide⟩
    | cons item rest =>
      exact ⟨91, _, by simp only [prettyAt, Bytes.ofText_append, List.append_assoc]; rfl, by decide⟩
  | object members =>
    cases members with
    | nil => exact ⟨123, [125], by rw [prettyAt]; decide, by decide⟩
    | cons m rest =>
      exact ⟨123, _, by simp only [prettyAt, Bytes.ofText_append, List.append_assoc]; rfl, by decide⟩

/-- An item on a line of its own, be it the first of its array or a later one. -/
theorem readFrom_line {awaited : Awaited} (h : awaited = .firstItem ∨ awaited = .value)
    (level : Nat) (j : Json) {room : Nat} (hfits : Fits room j) (tail : Bytes) :
    readFrom ⟨stack, awaited⟩
        (Bytes.ofText (newline level) ++ (Bytes.ofText (prettyAt level j) ++ tail))
      = readFrom ⟨stack, .value⟩ (Bytes.ofText (prettyAt level j) ++ tail) := by
  rcases h with rfl | rfl
  · obtain ⟨x, b, htext, hspace, hclose⟩ := prettyAt_head level j hfits
    rw [readFrom_newline (skips_firstItem stack), htext, List.cons_append, readFrom_cons,
      readFrom_cons]
    simp [Machine.step, hspace, hclose]
  · exact readFrom_newline (skips_value stack) level _

/-- A name on a line of its own, with its colon and a space. -/
theorem readFrom_nameLine {awaited : Awaited} (h : awaited = .firstName ∨ awaited = .name)
    (level : Nat) (done : List (Bytes × Node)) (name : String) (tail : Bytes) :
    readFrom ⟨.object done :: stack, awaited⟩
      (Bytes.ofText (newline level) ++ (Bytes.ofText (quoted name) ++ 58 :: 32 :: tail))
      = readFrom ⟨.member done (written name) :: stack, .value⟩ tail := by
  rw [readFrom_newline (skips_name _ h), readFrom_name stack h,
    readFrom_step (skips_value _ 32 (by decide))]

-- by recursion on the value, as for texts without white space
mutual

/-- A machine that awaits a value and reads a text in lines delivers what the text is. -/
theorem readFrom_prettyAt (j : Json) (room : Nat) (h : Fits room j) (level : Nat)
    (stack : List Frame) (tail : Bytes) :
    readFrom ⟨stack, .value⟩ (Bytes.ofText (prettyAt level j) ++ tail)
      = (Machine.deliver j.node stack).bind fun m => readFrom m tail := by
  match j with
  | .null | .bool true | .bool false =>
    -- these have the same text in both forms
    have hsame := readFrom_text _ h.plain stack tail nofun
    simpa only [prettyAt, text] using hsame
  | .number _ => simp [Fits] at h
  | .string s =>
    rw [prettyAt]
    exact readFrom_quoted stack s tail
  | .array [] =>
    show readFrom _ (91 :: 93 :: tail) = _
    rw [readFrom_step rfl, readFrom_cons]
    rfl
  | .array (item :: rest) =>
    rw [Fits] at h
    simp only [prettyAt, Bytes.ofText_append, List.append_assoc]
    show readFrom _ (91 :: (Bytes.ofText (prettyItems (level + 1) (item :: rest))
      ++ (Bytes.ofText (newline level) ++ 93 :: tail))) = _
    rw [readFrom_step (n := ⟨.array [] :: stack, .firstItem⟩) rfl, node,
      readFrom_prettyItems (item :: rest) (room - 1) h.2 (by simp) (.inl rfl)]
    rfl
  | .object [] =>
    show readFrom _ (123 :: 125 :: tail) = _
    rw [readFrom_step rfl, readFrom_cons]
    rfl
  | .object (m :: rest) =>
    rw [Fits] at h
    simp only [prettyAt, Bytes.ofText_append, List.append_assoc]
    show readFrom _ (123 :: (Bytes.ofText (prettyMembers (level + 1) (m :: rest))
      ++ (Bytes.ofText (newline level) ++ 125 :: tail))) = _
    rw [readFrom_step (n := ⟨.object [] :: stack, .firstName⟩) rfl, node,
      readFrom_prettyMembers (m :: rest) (room - 1) h.2.2 (by simp) (.inl rfl)]
    rfl

/-- Items in lines up to the end of their array. -/
theorem readFrom_prettyItems (items : List Json) (room : Nat) (h : ItemsFit room items)
    (hne : items ≠ []) {awaited : Awaited} (hawaited : awaited = .firstItem ∨ awaited = .value)
    (level outer : Nat) (done : List Node) (stack : List Frame) (tail : Bytes) :
    readFrom ⟨.array done :: stack, awaited⟩
      (Bytes.ofText (prettyItems level items) ++ (Bytes.ofText (newline outer) ++ 93 :: tail))
      = (Machine.deliver (.array (done.reverse ++ itemNodes items)) stack).bind
          fun m => readFrom m tail := by
  match items with
  | [] => exact absurd rfl hne
  | [item] =>
    rw [ItemsFit] at h
    have hend : Machine.step ⟨.array (item.node :: done) :: stack, .after⟩ 93
        = Machine.deliver (.array (item.node :: done).reverse) stack := rfl
    simp only [prettyItems, Bytes.ofText_append, List.append_assoc]
    rw [readFrom_line _ hawaited level item h.1, readFrom_prettyAt item room h.1, Machine.deliver,
      Option.bind_some, readFrom_newline (skips_after _), readFrom_cons, hend, List.reverse_cons]
    rfl
  | item :: next :: rest =>
    rw [ItemsFit] at h
    have hcomma : Machine.step ⟨.array (item.node :: done) :: stack, .after⟩ 44
        = some ⟨.array (item.node :: done) :: stack, .value⟩ := rfl
    simp only [prettyItems, Bytes.ofText_append, List.append_assoc]
    rw [readFrom_line _ hawaited level item h.1, readFrom_prettyAt item room h.1, Machine.deliver,
      Option.bind_some]
    -- the comma stands right after the item, and the line break after the comma
    show readFrom _ (44 :: (Bytes.ofText (prettyItems level (next :: rest))
      ++ (Bytes.ofText (newline outer) ++ 93 :: tail))) = _
    rw [readFrom_step hcomma, readFrom_prettyItems (next :: rest) room h.2 (by simp) (.inr rfl)]
    simp [itemNodes]

/-- Members in lines up to the end of their object. -/
theorem readFrom_prettyMembers (members : List (String × Json)) (room : Nat)
    (h : MembersFit room members) (hne : members ≠ []) {awaited : Awaited}
    (hawaited : awaited = .firstName ∨ awaited = .name) (level outer : Nat)
    (done : List (Bytes × Node)) (stack : List Frame) (tail : Bytes) :
    readFrom ⟨.object done :: stack, awaited⟩
      (Bytes.ofText (prettyMembers level members) ++ (Bytes.ofText (newline outer) ++ 125 :: tail))
      = (Machine.deliver (.object (done.reverse ++ memberNodes members)) stack).bind
          fun m => readFrom m tail := by
  match members with
  | [] => exact absurd rfl hne
  | [(name, value)] =>
    rw [MembersFit] at h
    have hend : Machine.step ⟨.object ((written name, value.node) :: done) :: stack, .after⟩ 125
        = Machine.deliver (.object ((written name, value.node) :: done).reverse) stack := rfl
    simp only [prettyMembers, Bytes.ofText_append, List.append_assoc]
    show readFrom _ (Bytes.ofText (newline level) ++ (Bytes.ofText (quoted name)
      ++ 58 :: 32 :: (Bytes.ofText (prettyAt level value)
        ++ (Bytes.ofText (newline outer) ++ 125 :: tail)))) = _
    rw [readFrom_nameLine stack hawaited, readFrom_prettyAt value room h.1, Machine.deliver,
      Option.bind_some, readFrom_newline (skips_after _), readFrom_cons, hend, List.reverse_cons]
    rfl
  | (name, value) :: next :: rest =>
    rw [MembersFit] at h
    have hcomma : Machine.step ⟨.object ((written name, value.node) :: done) :: stack, .after⟩ 44
        = some ⟨.object ((written name, value.node) :: done) :: stack, .name⟩ := rfl
    simp only [prettyMembers, Bytes.ofText_append, List.append_assoc]
    show readFrom _ (Bytes.ofText (newline level) ++ (Bytes.ofText (quoted name)
      ++ 58 :: 32 :: (Bytes.ofText (prettyAt level value)
        ++ 44 :: (Bytes.ofText (prettyMembers level (next :: rest))
          ++ (Bytes.ofText (newline outer) ++ 125 :: tail))))) = _
    rw [readFrom_nameLine stack hawaited, readFrom_prettyAt value room h.1, Machine.deliver,
      Option.bind_some, readFrom_step hcomma,
      readFrom_prettyMembers (next :: rest) room h.2 (by simp) (.inr rfl)]
    simp [memberNodes]

end

/-- The text of a value in lines is read as its written form. -/
theorem read_prettyText (j : Json) {room : Nat} (h : Fits room j) :
    read (Bytes.ofText j.prettyText) = some j.node := by
  have hread := readFrom_prettyAt j room h 0 [] []
  rw [List.append_nil] at hread
  exact hread

end Acme.Json.Node
