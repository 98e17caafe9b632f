import Acme.Proofs.Json.Numbers
import Acme.Proofs.Json.Strings

/-!
# Reading what is written

The machine of `Node.read` on the text of a value. `Json.node` is the text taken apart; the main
statement (`readFrom_text`) says that a machine that awaits a value and reads a text does to its
stack what delivering that node does, and goes on with whatever follows the text.

Numbers are natural numbers here (`Json.Plain`). Where whole values are read there are none, and arrays
and objects nest at most as deep as the reader allows (`Json.Fits`).
-/

namespace Acme.Json

mutual

/-- The written form of a value. -/
def node : Json → Node
  | .null => .null
  | .bool b => .bool b
  | .number n => .number (Bytes.ofText n.text)
  | .string s => .string (written s)
  | .array items => .array (itemNodes items)
  | .object members => .object (memberNodes members)

def itemNodes : List Json → List Node
  | [] => []
  | item :: rest => node item :: itemNodes rest

def memberNodes : List (String × Json) → List (Bytes × Node)
  | [] => []
  | (name, value) :: rest => (written name, node value) :: memberNodes rest

end

mutual

/-- A value in which every number is a natural number. -/
def Plain : Json → Prop
  | .number (.integer n) => 0 ≤ n
  | .number (.real _ _) => False
  | .array items => ItemsPlain items
  | .object members => MembersPlain members
  | _ => True

def ItemsPlain : List Json → Prop
  | [] => True
  | item :: rest => Plain item ∧ ItemsPlain rest

def MembersPlain : List (String × Json) → Prop
  | [] => True
  | (_, value) :: rest => Plain value ∧ MembersPlain rest

end

mutual

/-- A value without numbers, in which at most `room` arrays and objects stand inside one another
and no object repeats a name. -/
def Fits (room : Nat) : Json → Prop
  | .number _ => False
  | .array items => 0 < room ∧ ItemsFit (room - 1) items
  | .object members => 0 < room ∧ (members.map (·.1)).Nodup ∧ MembersFit (room - 1) members
  | _ => True

def ItemsFit (room : Nat) : List Json → Prop
  | [] => True
  | item :: rest => Fits room item ∧ ItemsFit room rest

def MembersFit (room : Nat) : List (String × Json) → Prop
  | [] => True
  | (_, value) :: rest => Fits room value ∧ MembersFit room rest

end

mutual

theorem Fits.plain {room : Nat} {j : Json} (h : Fits room j) : Plain j := by
  match j with
  | .null | .bool _ | .string _ => trivial
  | .number _ => simp [Fits] at h
  | .array items =>
    rw [Fits] at h
    exact ItemsFit.plain h.2
  | .object members =>
    rw [Fits] at h
    exact MembersFit.plain h.2.2

theorem ItemsFit.plain {room : Nat} {items : List Json} (h : ItemsFit room items) :
    ItemsPlain items := by
  match items with
  | [] => trivial
  | item :: rest =>
    rw [ItemsFit] at h
    exact ⟨Fits.plain h.1, ItemsFit.plain h.2⟩

theorem MembersFit.plain {room : Nat} {members : List (String × Json)} (h : MembersFit room members) :
    MembersPlain members := by
  match members with
  | [] => trivial
  | (_, value) :: rest =>
    rw [MembersFit] at h
    exact ⟨Fits.plain h.1, MembersFit.plain h.2⟩

end

namespace Node

/-- What a machine makes of the rest of a text. -/
def readFrom (m : Machine) (b : Bytes) : Option Node := (b.foldlM Machine.step m).bind Machine.finish

theorem readFrom_cons (m : Machine) (x : UInt8) (b : Bytes) :
    readFrom m (x :: b) = (m.step x).bind fun m => readFrom m b := by
  simp [readFrom, List.foldlM_cons, Option.bind_assoc]

theorem readFrom_step {m n : Machine} {x : UInt8} (h : m.step x = some n) (b : Bytes) :
    readFrom m (x :: b) = readFrom n b := by
  rw [readFrom_cons, h]
  rfl

variable (stack : List Frame)

/-! ### Strings -/

/-- One character, whatever stands before and after it. -/
theorem readFrom_escaped (isName : Bool) (before : Bytes) (c : Char) (tail : Bytes) :
    readFrom ⟨stack, .string isName .plain before⟩ (escaped c ++ tail)
      = readFrom ⟨stack, .string isName .plain ((escaped c).reverse ++ before)⟩ tail := by
  rcases escape_cases c with ⟨x, hform, hx, hescape, -⟩ | ⟨x, y, hform, hxdigit, hydigit, -, -⟩
    | ⟨hform, hplain⟩
  · rw [hform]
    show readFrom _ (92 :: x :: tail) = _
    rw [readFrom_step (n := ⟨stack, .string isName .escape (92 :: before)⟩) rfl,
      readFrom_step (n := ⟨stack, .string isName .plain (x :: 92 :: before)⟩)]
    · rfl
    · simp [Machine.step, Machine.inString, hx, hescape]
  · rw [hform]
    show readFrom _ (92 :: 117 :: 48 :: 48 :: x :: y :: tail) = _
    rw [readFrom_step (n := ⟨stack, .string isName .escape (92 :: before)⟩) rfl,
      readFrom_step (n := ⟨stack, .string isName (.hex 3) (117 :: 92 :: before)⟩) rfl,
      readFrom_step (n := ⟨stack, .string isName (.hex 2) (48 :: 117 :: 92 :: before)⟩) rfl,
      readFrom_step (n := ⟨stack, .string isName (.hex 1) (48 :: 48 :: 117 :: 92 :: before)⟩) rfl,
      readFrom_step (n := ⟨stack, .string isName (.hex 0) (x :: 48 :: 48 :: 117 :: 92 :: before)⟩),
      readFrom_step
        (n := ⟨stack, .string isName .plain (y :: x :: 48 :: 48 :: 117 :: 92 :: before)⟩)]
    · rfl
    · simp [Machine.step, Machine.inString, hydigit]
    · simp [Machine.step, Machine.inString, hxdigit]
  · rw [hform]
    -- octets that end, escape or break nothing are taken as they are
    have htake (b : Bytes) (hb : ∀ x ∈ b, ¬ x < 32 ∧ x ≠ 34 ∧ x ≠ 92) (before : Bytes) :
        readFrom ⟨stack, .string isName .plain before⟩ (b ++ tail)
          = readFrom ⟨stack, .string isName .plain (b.reverse ++ before)⟩ tail := by
      induction b generalizing before with
      | nil => rfl
      | cons x b ih =>
        obtain ⟨hcontrol, hquote, hbackslash⟩ := hb x (by simp)
        rw [List.cons_append, readFrom_step (n := ⟨stack, .string isName .plain (x :: before)⟩),
          ih fun y hy => hb y (by simp [hy])]
        · simp
        · simp [Machine.step, Machine.inString, hcontrol, hquote, hbackslash]
    exact htake _ hplain before

theorem readFrom_written (isName : Bool) (s : String) (tail : Bytes) :
    readFrom ⟨stack, .string isName .plain []⟩ (written s ++ tail)
      = readFrom ⟨stack, .string isName .plain (written s).reverse⟩ tail := by
  have hchars (cs : List Char) (before : Bytes) :
      readFrom ⟨stack, .string isName .plain before⟩ (cs.flatMap escaped ++ tail)
        = readFrom ⟨stack, .string isName .plain ((cs.flatMap escaped).reverse ++ before)⟩ tail := by
    induction cs generalizing before with
    | nil => rfl
    | cons c cs ih =>
      rw [List.flatMap_cons, List.append_assoc, readFrom_escaped, ih]
      simp
  rw [written, hchars, List.append_nil]

theorem readFrom_quoted (s : String) (tail : Bytes) :
    readFrom ⟨stack, .value⟩ (Bytes.ofText (quoted s) ++ tail)
      = (Machine.deliver (.string (written s)) stack).bind fun m => readFrom m tail := by
  have hend : Machine.step ⟨stack, .string false .plain (written s).reverse⟩ 34
      = Machine.deliver (.string (written s)) stack := by
    simp [Machine.step, Machine.inString]
  rw [ofText_quoted, List.append_assoc, List.cons_append,
    readFrom_step (n := ⟨stack, .string false .plain []⟩) rfl, readFrom_written,
    List.singleton_append, readFrom_cons, hend]

/-- A name with its colon, where a name is awaited. -/
theorem readFrom_name {awaited : Awaited} (h : awaited = .firstName ∨ awaited = .name)
    (done : List (Bytes × Node)) (name : String) (tail : Bytes) :
    readFrom ⟨.object done :: stack, awaited⟩ (Bytes.ofText (quoted name) ++ 58 :: tail)
      = readFrom ⟨.member done (written name) :: stack, .value⟩ tail := by
  have hend : Machine.step ⟨.object done :: stack, .string true .plain (written name).reverse⟩ 34
      = some ⟨.object done :: stack, .colon (written name)⟩ := by
    simp [Machine.step, Machine.inString]
  have hstart : Machine.step ⟨.object done :: stack, awaited⟩ 34
      = some ⟨.object done :: stack, .string true .plain []⟩ := by
    rcases h with rfl | rfl <;> rfl
  rw [ofText_quoted, List.append_assoc, List.cons_append, readFrom_step hstart, readFrom_written,
    List.singleton_append, readFrom_step hend,
    readFrom_step (n := ⟨.member done (written name) :: stack, .value⟩) rfl]

/-! ### Numbers -/

/-- No number goes on with what follows. -/
def Stops (tail : Bytes) : Prop := ∀ x ∈ tail.head?, isDigit x = false ∧ x ≠ 46 ∧ x ≠ 101 ∧ x ≠ 69

theorem stops_nil : Stops [] := nofun

/-- No number goes on with a comma or a closing bracket. -/
theorem stops {x : UInt8} (h : x = 44 ∨ x = 93 ∨ x = 125) (tail : Bytes) : Stops (x :: tail) := by
  intro y hy
  cases hy
  rcases h with rfl | rfl | rfl <;> decide

theorem next?_of_stops {part : NumberPart} (hpart : part.complete) {x : UInt8} {tail : Bytes}
    (h : Stops (x :: tail)) : part.next? x = none := by
  obtain ⟨hdigit, hpoint, hmark, hmark'⟩ := h x rfl
  cases part <;> simp [NumberPart.complete] at hpart <;> simp [NumberPart.next?, *]

/-- An octet that no number goes on with is taken in after the number has been delivered. -/
theorem step_endNumber {part : NumberPart} (hpart : part.complete) (before : Bytes) {x : UInt8}
    (hx : part.next? x = none) :
    Machine.step ⟨stack, .number part before⟩ x
      = (Machine.deliver (.number before.reverse) stack).bind fun m => m.step x := by
  simp only [Machine.step, hx, hpart, if_true]
  cases stack with
  | nil => rfl
  | cons frame stack => cases frame <;> rfl

/-- A number is delivered before whatever follows it is taken in. -/
theorem readFrom_endNumber {part : NumberPart} (hpart : part.complete) (before : Bytes) {tail : Bytes}
    (htail : Stops tail) :
    readFrom ⟨stack, .number part before⟩ tail
      = (Machine.deliver (.number before.reverse) stack).bind fun m => readFrom m tail := by
  cases tail with
  | nil =>
    cases stack with
    | nil =>
      have hfinish : Machine.finish ⟨[], .number part before⟩ = some (.number before.reverse) :=
        if_pos hpart
      exact hfinish
    | cons frame stack => cases frame <;> rfl
  | cons x tail =>
    have hstep := step_endNumber stack hpart before (next?_of_stops hpart htail)
    simp only [readFrom_cons, hstep, Option.bind_assoc]

/-- The digits of a number other than zero. -/
theorem readFrom_whole {n : Nat} (h : 0 < n) (tail : Bytes) :
    readFrom ⟨stack, .value⟩ (decimals n ++ tail)
      = readFrom ⟨stack, .number .whole (decimals n).reverse⟩ tail := by
  induction n using Nat.strongRecOn generalizing tail with
  | ind n ih =>
    by_cases hlast : n < 10
    · have hdigit : n = 1 ∨ n = 2 ∨ n = 3 ∨ n = 4 ∨ n = 5 ∨ n = 6 ∨ n = 7 ∨ n = 8 ∨ n = 9 := by omega
      have hbegin : Machine.step ⟨stack, .value⟩ (digitOctet n)
          = some ⟨stack, .number .whole [digitOctet n]⟩ := by
        rcases hdigit with rfl | rfl | rfl | rfl | rfl | rfl | rfl | rfl | rfl <;> rfl
      rw [decimals_of_lt hlast, List.singleton_append, readFrom_step hbegin]
      rfl
    · have hnext : Machine.step ⟨stack, .number .whole (decimals (n / 10)).reverse⟩ (digitOctet n)
          = some ⟨stack, .number .whole (digitOctet n :: (decimals (n / 10)).reverse)⟩ := by
        simp [Machine.step, NumberPart.next?, isDigit_digitOctet]
      rw [decimals_of_le (by omega), List.append_assoc, ih (n / 10) (by omega) (by omega),
        List.singleton_append, readFrom_step hnext, List.reverse_append]
      rfl

/-- A natural number is delivered as its digits. -/
theorem readFrom_decimals (n : Nat) {tail : Bytes} (htail : Stops tail) :
    readFrom ⟨stack, .value⟩ (decimals n ++ tail)
      = (Machine.deliver (.number (decimals n)) stack).bind fun m => readFrom m tail := by
  by_cases hzero : n = 0
  · subst hzero
    show readFrom _ (48 :: tail) = _
    rw [readFrom_step (n := ⟨stack, .number .zero [48]⟩) rfl,
      readFrom_endNumber stack (show NumberPart.zero.complete from rfl) _ htail]
    rfl
  · rw [readFrom_whole stack (by omega),
      readFrom_endNumber stack (show NumberPart.whole.complete from rfl) _ htail,
      List.reverse_reverse]

/-! ### Values -/

/-- A text begins with an octet that neither ends an array nor is white space. -/
theorem text_head (j : Json) (h : Plain j) :
    ∃ x b, Bytes.ofText j.text = x :: b ∧ isSpace x = false ∧ x ≠ 93 := by
  cases j with
  | null => exact ⟨110, [117, 108, 108], by decide⟩
  | bool b =>
    cases b with
    | true => exact ⟨116, [114, 117, 101], by decide⟩
    | false => exact ⟨102, [97, 108, 115, 101], by decide⟩
  | number n =>
    cases n with
    | integer n =>
      -- a plain number is not negative, so it begins with a digit
      obtain ⟨n, rfl⟩ := Int.eq_ofNat_of_zero_le h
      obtain ⟨x, b, hdigits⟩ := List.exists_cons_of_ne_nil (decimals_ne_nil n)
      have hx : isDigit x := isDigit_of_mem_decimals x (hdigits ▸ List.mem_cons_self)
      refine ⟨x, b, hdigits, ?_, ?_⟩
      · rcases hspace : isSpace x with _ | _
        · rfl
        · simp only [isSpace, Bool.or_eq_true, beq_iff_eq] at hspace
          rcases hspace with ((rfl | rfl) | rfl) | rfl <;> cases hx
      · rintro rfl
        cases hx
    | real negative magnitude => exact absurd h id
  | string s => exact ⟨34, _, by rw [text, ofText_quoted]; rfl, by decide⟩
  | array items => exact ⟨91, _, by rw [text, Bytes.ofText_append, Bytes.ofText_append]; rfl, by decide⟩
  | object members =>
    exact ⟨123, _, by rw [text, Bytes.ofText_append, Bytes.ofText_append]; rfl, by decide⟩

/-- The first item of an array is read like any other value. -/
theorem readFrom_firstItem (j : Json) (h : Plain j) (tail : Bytes) :
    readFrom ⟨stack, .firstItem⟩ (Bytes.ofText j.text ++ tail)
      = readFrom ⟨stack, .value⟩ (Bytes.ofText j.text ++ tail) := by
  obtain ⟨x, b, htext, hspace, hclose⟩ := text_head j h
  rw [htext, List.cons_append, readFrom_cons, readFrom_cons]
  simp [Machine.step, hspace, hclose]

-- by recursion on the value; the text that follows it and the stack are arbitrary
mutual

/-- A machine that awaits a value and reads a text delivers what the text is. Only a number needs to be
told from what follows it. -/
theorem readFrom_text (j : Json) (h : Plain j) (stack : List Frame) (tail : Bytes)
    (htail : ∀ n, j = .number n → Stops tail) :
    readFrom ⟨stack, .value⟩ (Bytes.ofText j.text ++ tail)
      = (Machine.deliver j.node stack).bind fun m => readFrom m tail := by
  match j with
  | .null =>
    show readFrom _ (110 :: 117 :: 108 :: 108 :: tail) = _
    rw [readFrom_step rfl, readFrom_step rfl, readFrom_step rfl, readFrom_cons]
    rfl
  | .bool true =>
    show readFrom _ (116 :: 114 :: 117 :: 101 :: tail) = _
    rw [readFrom_step rfl, readFrom_step rfl, readFrom_step rfl, readFrom_cons]
    rfl
  | .bool false =>
    show readFrom _ (102 :: 97 :: 108 :: 115 :: 101 :: tail) = _
    rw [readFrom_step rfl, readFrom_step rfl, readFrom_step rfl, readFrom_step rfl, readFrom_cons]
    rfl
  | .number (.integer (.ofNat n)) => exact readFrom_decimals stack n (htail _ rfl)
  | .string s =>
    rw [text]
    exact readFrom_quoted stack s tail
  | .array [] =>
    show readFrom _ (91 :: 93 :: tail) = _
    rw [readFrom_step rfl, readFrom_cons]
    rfl
  | .array (item :: rest) =>
    have hitems : ItemsPlain (item :: rest) := h
    rw [text, Bytes.ofText_append, Bytes.ofText_append, List.append_assoc, List.append_assoc]
    show readFrom _ (91 :: (Bytes.ofText (itemsText (item :: rest)) ++ 93 :: tail)) = _
    -- an array that has just been opened may end at once, so its first item is awaited differently
    rw [readFrom_step (n := ⟨.array [] :: stack, .firstItem⟩) rfl, node]
    refine Eq.trans ?_ (readFrom_items (item :: rest) hitems (by simp) [] stack tail)
    cases rest with
    | nil =>
      exact readFrom_firstItem _ item hitems.1 _
    | cons next rest =>
      simp only [itemsText, Bytes.ofText_append, List.append_assoc]
      exact readFrom_firstItem _ item hitems.1 _
  | .object [] =>
    show readFrom _ (123 :: 125 :: tail) = _
    rw [readFrom_step rfl, readFrom_cons]
    rfl
  | .object (m :: rest) =>
    have hmembers : MembersPlain (m :: rest) := h
    rw [text, Bytes.ofText_append, Bytes.ofText_append, List.append_assoc, List.append_assoc]
    show readFrom _ (123 :: (Bytes.ofText (membersText (m :: rest)) ++ 125 :: tail)) = _
    rw [readFrom_step (n := ⟨.object [] :: stack, .firstName⟩) rfl, node,
      readFrom_members (m :: rest) hmembers (by simp) (.inl rfl) [] stack tail]
    rfl

/-- Items up to the end of their array. -/
theorem readFrom_items (items : List Json) (h : ItemsPlain items) (hne : items ≠ []) (done : List Node)
    (stack : List Frame) (tail : Bytes) :
    readFrom ⟨.array done :: stack, .value⟩ (Bytes.ofText (itemsText items) ++ 93 :: tail)
      = (Machine.deliver (.array (done.reverse ++ itemNodes items)) stack).bind
          fun m => readFrom m tail := by
  match items with
  | [] => exact absurd rfl hne
  | [item] =>
    have hend : Machine.step ⟨.array (item.node :: done) :: stack, .after⟩ 93
        = Machine.deliver (.array (item.node :: done).reverse) stack := rfl
    rw [itemsText, readFrom_text item h.1 _ _ fun _ _ => stops (.inr (.inl rfl)) tail,
      Machine.deliver, Option.bind_some, readFrom_cons, hend, List.reverse_cons]
    rfl
  | item :: next :: rest =>
    have hcomma : Machine.step ⟨.array (item.node :: done) :: stack, .after⟩ 44
        = some ⟨.array (item.node :: done) :: stack, .value⟩ := rfl
    simp only [itemsText, Bytes.ofText_append, List.append_assoc]
    show readFrom _ (Bytes.ofText item.text
      ++ 44 :: (Bytes.ofText (itemsText (next :: rest)) ++ 93 :: tail)) = _
    rw [readFrom_text item h.1 _ _ fun _ _ => stops (.inl rfl) _, Machine.deliver, Option.bind_some,
      readFrom_step hcomma, readFrom_items (next :: rest) h.2 (by simp)]
    simp [itemNodes]

/-- Members up to the end of their object. -/
theorem readFrom_members (members : List (String × Json)) (h : MembersPlain members)
    (hne : members ≠ []) {awaited : Awaited} (hawaited : awaited = .firstName ∨ awaited = .name)
    (done : List (Bytes × Node)) (stack : List Frame) (tail : Bytes) :
    readFrom ⟨.object done :: stack, awaited⟩ (Bytes.ofText (membersText members) ++ 125 :: tail)
      = (Machine.deliver (.object (done.reverse ++ memberNodes members)) stack).bind
          fun m => readFrom m tail := by
  match members with
  | [] => exact absurd rfl hne
  | [(name, value)] =>
    have hend : Machine.step ⟨.object ((written name, value.node) :: done) :: stack, .after⟩ 125
        = Machine.deliver (.object ((written name, value.node) :: done).reverse) stack := rfl
    rw [membersText, Bytes.ofText_append, Bytes.ofText_append, List.append_assoc, List.append_assoc]
    show readFrom _ (Bytes.ofText (quoted name) ++ 58 :: (Bytes.ofText value.text ++ 125 :: tail))
      = _
    rw [readFrom_name stack hawaited,
      readFrom_text value h.1 _ _ fun _ _ => stops (.inr (.inr rfl)) tail, Machine.deliver,
      Option.bind_some, readFrom_cons, hend, List.reverse_cons]
    rfl
  | (name, value) :: next :: rest =>
    have hcomma : Machine.step ⟨.object ((written name, value.node) :: done) :: stack, .after⟩ 44
        = some ⟨.object ((written name, value.node) :: done) :: stack, .name⟩ := rfl
    simp only [membersText, Bytes.ofText_append, List.append_assoc]
    show readFrom _ (Bytes.ofText (quoted name) ++ 58 :: (Bytes.ofText value.text
      ++ 44 :: (Bytes.ofText (membersText (next :: rest)) ++ 125 :: tail))) = _
    rw [readFrom_name stack hawaited, readFrom_text value h.1 _ _ fun _ _ => stops (.inl rfl) _,
      Machine.deliver, Option.bind_some, readFrom_step hcomma,
      readFrom_members (next :: rest) h.2 (by simp) (.inr rfl)]
    simp [memberNodes]

end

/-- The text of a value is read as its written form. -/
theorem read_text (j : Json) (h : Plain j) : read (Bytes.ofText j.text) = some j.node := by
  have hread := readFrom_text j h [] [] fun _ _ => stops_nil
  rw [List.append_nil] at hread
  exact hread

end Node

end Acme.Json
