import Acme.Proofs.Json.Grammar
import Acme.Proofs.Json.Pretty

/-!
# The reader and the grammar

`Node.read` accepts exactly what the grammar allows, and gives the text that was written
(`read_eq_some_iff`).

In one direction, the machine follows every derivation (`readFrom_writes`). In the other, `Completes m b n`
says in terms of the grammar what a machine still awaits: whatever octet it takes in, what it awaited
before is that octet and what it awaits then (`completes_step`).
-/

namespace Acme.Json.Node

/-! ### What remains of arrays and objects -/

/-- The octets write the items after an item of an array, up to the array's end. -/
inductive ItemsLeft : List Node → Bytes → Prop
  | none {s : Bytes} (h : IsBlank s) : ItemsLeft [] (s ++ [93])
  | some {s b : Bytes} {items : List Node} (hs : IsBlank s) (h : WritesItems items b) :
    ItemsLeft items (s ++ 44 :: (b ++ [93]))

/-- The octets write the members after a member of an object, up to the object's end. -/
inductive MembersLeft : List (Bytes × Node) → Bytes → Prop
  | none {s : Bytes} (h : IsBlank s) : MembersLeft [] (s ++ [125])
  | some {s b : Bytes} {members : List (Bytes × Node)} (hs : IsBlank s) (h : WritesMembers members b) :
    MembersLeft members (s ++ 44 :: (b ++ [125]))

theorem isBlank_nil : IsBlank [] := nofun

theorem isBlank_cons {x : UInt8} {s : Bytes} (hx : isSpace x) (hs : IsBlank s) : IsBlank (x :: s) := by
  intro y hy
  rcases List.mem_cons.mp hy with rfl | hy
  · exact hx
  · exact hs y hy

theorem Writes.blankBefore {n : Node} {s b : Bytes} (hs : IsBlank s) (h : Writes n b) :
    Writes n (s ++ b) := by
  induction s with
  | nil => exact h
  | cons x s ih => exact .spaceBefore (hs x (by simp)) (ih fun y hy => hs y (by simp [hy]))

theorem Writes.blankAfter {n : Node} {s b : Bytes} (h : Writes n b) (hs : IsBlank s) :
    Writes n (b ++ s) := by
  induction s generalizing b with
  | nil =>
    rw [List.append_nil]
    exact h
  | cons x s ih =>
    rw [List.append_cons]
    exact ih (.spaceAfter h (hs x (by simp))) fun y hy => hs y (by simp [hy])

theorem ItemsLeft.space {items : List Node} {x : UInt8} {b : Bytes} (hx : isSpace x)
    (h : ItemsLeft items b) : ItemsLeft items (x :: b) := by
  cases h with
  | none hs => exact .none (isBlank_cons hx hs)
  | some hs h => exact .some (isBlank_cons hx hs) h

theorem MembersLeft.space {members : List (Bytes × Node)} {x : UInt8} {b : Bytes} (hx : isSpace x)
    (h : MembersLeft members b) : MembersLeft members (x :: b) := by
  cases h with
  | none hs => exact .none (isBlank_cons hx hs)
  | some hs h => exact .some (isBlank_cons hx hs) h

/-- An item and those after it. -/
theorem ItemsLeft.cons {n : Node} {items : List Node} {b c : Bytes} (h : Writes n b)
    (hleft : ItemsLeft items c) : ∃ d, WritesItems (n :: items) d ∧ b ++ c = d ++ [93] := by
  cases hleft with
  | none hs => exact ⟨_, .last (h.blankAfter hs), by simp⟩
  | some hs hitems => exact ⟨_, .more (h.blankAfter hs) hitems, by simp⟩

/-- A member and those after it. -/
theorem MembersLeft.cons {name a b c : Bytes} {n : Node} {members : List (Bytes × Node)}
    (hname : Writes (.string name) a) (h : Writes n b) (hleft : MembersLeft members c) :
    ∃ d, WritesMembers ((name, n) :: members) d ∧ a ++ 58 :: (b ++ c) = d ++ [125] := by
  cases hleft with
  | none hs => exact ⟨_, .last hname (h.blankAfter hs), by simp⟩
  | some hs hmembers => exact ⟨_, .more hname (h.blankAfter hs) hmembers, by simp⟩

/-! ### What a machine awaits -/

/-- The octets complete a text to `n`, after a value that is delivered to the stack. -/
def Closes : List Frame → Node → Bytes → Node → Prop
  | [], v, b, n => IsBlank b ∧ n = v
  | .array done :: stack, v, b, n =>
    ∃ items c d, ItemsLeft items c ∧ b = c ++ d ∧ Closes stack (.array (done.reverse ++ v :: items)) d n
  | .member done name :: stack, v, b, n =>
    ∃ members c d, MembersLeft members c ∧ b = c ++ d
      ∧ Closes stack (.object (done.reverse ++ (name, v) :: members)) d n
  | .object _ :: _, _, _, _ => False

/-- The octets begin with a value, after which they complete a text to `n`. -/
def ClosesValue (stack : List Frame) (b : Bytes) (n : Node) : Prop :=
  ∃ v c d, Writes v c ∧ b = c ++ d ∧ Closes stack v d n

/-- The octets begin with a colon and a value for a member, after which they complete a text to `n`. -/
def ClosesColon (stack : List Frame) (name b : Bytes) (n : Node) : Prop :=
  ∃ done outer s c, stack = .object done :: outer ∧ IsBlank s ∧ b = s ++ 58 :: c
    ∧ ClosesValue (.member done name :: outer) c n

/-- The octets begin with a name, its colon and a value, after which they complete a text to `n`. -/
def ClosesName (stack : List Frame) (b : Bytes) (n : Node) : Prop :=
  ∃ s name c, IsBlank s ∧ IsString name ∧ b = s ++ 34 :: (name ++ 34 :: c) ∧ ClosesColon stack name c n

/-- What may follow a part of a string. -/
def StringRest : StringPart → Bytes → Prop
  | .plain, b => IsString b
  | .escape, b => IsString (92 :: b)
  | .hex left, b =>
    ∃ digits c, digits.length = left + 1 ∧ (∀ x ∈ digits, isHexDigit x) ∧ b = digits ++ c ∧ IsString c

/-- The octets complete what a machine has read to the text `n`. -/
def Completes (m : Machine) (b : Bytes) (n : Node) : Prop :=
  let stack := m.stack
  match m.awaited with
  | .value => ClosesValue stack b n
  | .firstItem =>
    (∃ done outer s c, stack = .array done :: outer ∧ IsBlank s ∧ b = s ++ 93 :: c
        ∧ Closes outer (.array []) c n)
      ∨ ClosesValue stack b n
  | .firstName =>
    (∃ done outer s c, stack = .object done :: outer ∧ IsBlank s ∧ b = s ++ 125 :: c
        ∧ Closes outer (.object []) c n)
      ∨ ClosesName stack b n
  | .name => ClosesName stack b n
  | .colon name => ClosesColon stack name b n
  | .string isName part written =>
    ∃ c d, StringRest part c ∧ b = c ++ 34 :: d
      ∧ if isName then ClosesColon stack (written.reverse ++ c) d n
        else Closes stack (.string (written.reverse ++ c)) d n
  | .number part written =>
    ∃ c d, Rest part c ∧ b = c ++ d ∧ Closes stack (.number (written.reverse ++ c)) d n
  | .word left node => ∃ d, b = left ++ d ∧ Closes stack node d n
  | .after =>
    match stack with
    | .array done :: outer =>
      ∃ items c d, ItemsLeft items c ∧ b = c ++ d ∧ Closes outer (.array (done.reverse ++ items)) d n
    | .object done :: outer =>
      ∃ members c d, MembersLeft members c ∧ b = c ++ d
        ∧ Closes outer (.object (done.reverse ++ members)) d n
    | _ => False
  | .nothing node => IsBlank b ∧ n = node

/-! ### One octet -/

variable {stack : List Frame} {m : Machine} {v n : Node} {x : UInt8} {b : Bytes}

/-- A value in an array begins its remaining items. -/
theorem ClosesValue.items {done : List Node} (h : ClosesValue (.array done :: stack) b n) :
    ∃ items c d, WritesItems items c ∧ b = c ++ 93 :: d
      ∧ Closes stack (.array (done.reverse ++ items)) d n := by
  obtain ⟨v, c, d, hv, rfl, items, c', d', hitems, rfl, hclose⟩ := h
  obtain ⟨e, he, heq⟩ := hitems.cons hv
  exact ⟨v :: items, e, d', he, by rw [← List.append_assoc, heq]; simp, hclose⟩

/-- A name in an object begins its remaining members. -/
theorem ClosesName.members {done : List (Bytes × Node)} (h : ClosesName (.object done :: stack) b n) :
    ∃ members c d, WritesMembers members c ∧ b = c ++ 125 :: d
      ∧ Closes stack (.object (done.reverse ++ members)) d n := by
  obtain ⟨s, name, _, hs, hname, rfl, _, _, t, _, hstack, ht, rfl, v, c, d, hv, rfl, members, c', d',
    hmembers, rfl, hclose⟩ := h
  cases hstack
  have hwritten : Writes (.string name) (s ++ (34 :: (name ++ [34]) ++ t)) :=
    ((Writes.string hname).blankAfter ht).blankBefore hs
  obtain ⟨e, he, heq⟩ := hmembers.cons hwritten hv
  refine ⟨(name, v) :: members, e, d', he, ?_, hclose⟩
  calc s ++ 34 :: (name ++ 34 :: (t ++ 58 :: (c ++ (c' ++ d'))))
      = (s ++ (34 :: (name ++ [34]) ++ t)) ++ 58 :: (c ++ c') ++ d' := by simp
    _ = e ++ [125] ++ d' := by rw [heq]
    _ = e ++ 125 :: d' := by simp

theorem ClosesValue.space (hx : isSpace x) (h : ClosesValue stack b n) :
    ClosesValue stack (x :: b) n := by
  obtain ⟨v, c, d, hv, rfl, hclose⟩ := h
  exact ⟨v, x :: c, d, .spaceBefore hx hv, rfl, hclose⟩

theorem ClosesName.space (hx : isSpace x) (h : ClosesName stack b n) : ClosesName stack (x :: b) n := by
  obtain ⟨s, name, c, hs, hname, rfl, hcolon⟩ := h
  exact ⟨x :: s, name, c, isBlank_cons hx hs, hname, rfl, hcolon⟩

/-- A value is delivered to where it was awaited. -/
theorem closes_of_deliver (hm : Machine.deliver v stack = some m) (h : Completes m b n) :
    Closes stack v b n := by
  match stack, hm with
  | [], rfl => exact h
  | .array done :: _, rfl =>
    obtain ⟨items, c, d, hitems, hb, hclose⟩ := h
    rw [List.reverse_cons, List.append_assoc] at hclose
    exact ⟨items, c, d, hitems, hb, hclose⟩
  | .member done name :: _, rfl =>
    obtain ⟨members, c, d, hmembers, hb, hclose⟩ := h
    rw [List.reverse_cons, List.append_assoc] at hclose
    exact ⟨members, c, d, hmembers, hb, hclose⟩

theorem completes_afterValue (hm : Machine.afterValue stack x = some m) (h : Completes m b n) :
    Completes ⟨stack, .after⟩ (x :: b) n := by
  unfold Machine.afterValue at hm
  split at hm
  · cases hm
    -- after a comma in an array there are more items; a bracket ends it
    obtain ⟨items, c, d, hitems, rfl, hclose⟩ := ClosesValue.items h
    exact ⟨items, 44 :: (c ++ [93]), d, .some isBlank_nil hitems, by simp, hclose⟩
  · have hclose := closes_of_deliver hm h
    exact ⟨[], [93], b, .none isBlank_nil, rfl, by rw [List.append_nil]; exact hclose⟩
  · cases hm
    -- and likewise in an object
    obtain ⟨members, c, d, hmembers, rfl, hclose⟩ := ClosesName.members h
    exact ⟨members, 44 :: (c ++ [125]), d, .some isBlank_nil hmembers, by simp, hclose⟩
  · have hclose := closes_of_deliver hm h
    exact ⟨[], [125], b, .none isBlank_nil, rfl, by rw [List.append_nil]; exact hclose⟩
  · split at hm
    · rename_i hx
      cases hm
      match stack, h with
      | .array _ :: _, ⟨items, c, d, hitems, hb, hclose⟩ =>
        exact ⟨items, x :: c, d, hitems.space hx, by rw [hb]; rfl, hclose⟩
      | .object _ :: _, ⟨members, c, d, hmembers, hb, hclose⟩ =>
        exact ⟨members, x :: c, d, hmembers.space hx, by rw [hb]; rfl, hclose⟩
    · cases hm

/-- The first octet of a value. -/
theorem closesValue_begin (hm : Machine.begin stack x = some m) (h : Completes m b n) :
    ClosesValue stack (x :: b) n := by
  unfold Machine.begin at hm
  split at hm
  · cases hm
    -- the octet tells which value begins; what the machine then awaits is the rest of it
    obtain ⟨c, d, hc, rfl, hclose⟩ := h
    exact ⟨.string c, 34 :: (c ++ [34]), d, .string hc, by simp, hclose⟩
  · cases hm
    rcases h with ⟨_, _, s, c, hstack, hs, rfl, hclose⟩ | h
    · cases hstack
      exact ⟨.array [], 91 :: (s ++ [93]), c, .noItems hs, by simp, hclose⟩
    · obtain ⟨items, c, d, hitems, rfl, hclose⟩ := ClosesValue.items h
      exact ⟨.array items, 91 :: (c ++ [93]), d, .array hitems, by simp, hclose⟩
  · cases hm
    rcases h with ⟨_, _, s, c, hstack, hs, rfl, hclose⟩ | h
    · cases hstack
      exact ⟨.object [], 123 :: (s ++ [125]), c, .noMembers hs, by simp, hclose⟩
    · obtain ⟨members, c, d, hmembers, rfl, hclose⟩ := ClosesName.members h
      exact ⟨.object members, 123 :: (c ++ [125]), d, .object hmembers, by simp, hclose⟩
  · cases hm
    obtain ⟨d, rfl, hclose⟩ := h
    exact ⟨.null, _, d, .null, rfl, hclose⟩
  · cases hm
    obtain ⟨d, rfl, hclose⟩ := h
    exact ⟨.bool true, _, d, .true, rfl, hclose⟩
  · cases hm
    obtain ⟨d, rfl, hclose⟩ := h
    exact ⟨.bool false, _, d, .false, rfl, hclose⟩
  · cases hm
    obtain ⟨c, d, hc, rfl, hclose⟩ := h
    exact ⟨_, 45 :: c, d, .number (isNumber_iff.mpr (.inl ⟨c, rfl, hc⟩)), rfl, hclose⟩
  · obtain ⟨part, hpart, rfl⟩ := Option.map_eq_some_iff.mp hm
    obtain ⟨c, d, hc, rfl, hclose⟩ := h
    exact ⟨_, x :: c, d, .number (isNumber_iff.mpr (.inr (rest_cons.mpr ⟨part, hpart, hc⟩))), rfl, hclose⟩

/-- An octet inside a string. -/
theorem completes_inString {isName : Bool} {part : StringPart} {written : Bytes}
    (hm : Machine.inString stack isName written x part = some m) (h : Completes m b n) :
    Completes ⟨stack, .string isName part written⟩ (x :: b) n := by
  -- an octet that the string goes on with stands before what may follow it
  have hmore {next : StringPart} (hrest : ∀ c, StringRest next c → StringRest part (x :: c))
      (h : Completes ⟨stack, .string isName next (x :: written)⟩ b n) :
      Completes ⟨stack, .string isName part written⟩ (x :: b) n := by
    obtain ⟨c, d, hc, rfl, hclose⟩ := h
    rw [List.reverse_cons, List.append_assoc] at hclose
    exact ⟨x :: c, d, hrest c hc, rfl, hclose⟩
  cases part with
  | plain =>
    simp only [Machine.inString] at hm
    split at hm
    · rename_i hx
      subst hx
      refine ⟨[], b, .nil, rfl, ?_⟩
      rw [List.append_nil]
      cases isName with
      | true =>
        cases hm
        exact h
      | false => exact closes_of_deliver hm h
    · rename_i hquote
      split at hm
      · cases hm
      · rename_i hcontrol
        cases hm
        by_cases hbackslash : x = 92
        · rw [if_pos hbackslash] at h
          subst hbackslash
          apply hmore _ h
          intro c hc
          exact hc
        · rw [if_neg hbackslash] at h
          apply hmore _ h
          intro c hc
          exact .plain hcontrol hquote hbackslash hc
  | escape =>
    simp only [Machine.inString] at hm
    split at hm
    · rename_i hx
      cases hm
      subst hx
      apply hmore _ h
      rintro _ ⟨digits, c, hlength, hdigits, rfl, hc⟩
      exact .code hlength hdigits hc
    · split at hm
      · rename_i hx
        cases hm
        apply hmore _ h
        intro c hc
        exact .escape hx hc
      · cases hm
  | hex left =>
    simp only [Machine.inString] at hm
    split at hm
    · rename_i hx
      cases hm
      by_cases hleft : left = 0
      · rw [if_pos hleft] at h
        apply hmore _ h
        intro c hc
        exact ⟨[x], c, by simp [hleft], by simpa using hx, rfl, hc⟩
      · rw [if_neg hleft] at h
        apply hmore _ h
        rintro _ ⟨digits, c, hlength, hdigits, rfl, hc⟩
        exact ⟨x :: digits, c, by rw [List.length_cons]; omega, by simpa using ⟨hx, hdigits⟩, rfl, hc⟩
    · cases hm

theorem completes_firstItem (hm : Machine.step ⟨stack, .firstItem⟩ x = some m) (h : Completes m b n) :
    Completes ⟨stack, .firstItem⟩ (x :: b) n := by
  simp only [Machine.step] at hm
  split at hm
  · rename_i hx
    cases hm
    rcases h with ⟨done, outer, s, c, hstack, hs, rfl, hclose⟩ | h
    · exact .inl ⟨done, outer, x :: s, c, hstack, isBlank_cons hx hs, rfl, hclose⟩
    · exact .inr (h.space hx)
  · split at hm
    · rename_i hx
      subst hx
      split at hm
      · exact .inl ⟨_, _, [], b, rfl, isBlank_nil, rfl, closes_of_deliver hm h⟩
      · cases hm
    · exact .inr (closesValue_begin hm h)

/-- The quotation mark before a name. -/
theorem closesName_quote (h : Completes ⟨stack, .string true .plain []⟩ b n) :
    ClosesName stack (34 :: b) n := by
  obtain ⟨name, c, hname, rfl, hcolon⟩ := h
  exact ⟨[], name, c, isBlank_nil, hname, rfl, hcolon⟩

theorem completes_firstName (hm : Machine.step ⟨stack, .firstName⟩ x = some m) (h : Completes m b n) :
    Completes ⟨stack, .firstName⟩ (x :: b) n := by
  simp only [Machine.step] at hm
  split at hm
  · rename_i hx
    cases hm
    rcases h with ⟨done, outer, s, c, hstack, hs, rfl, hclose⟩ | h
    · exact .inl ⟨done, outer, x :: s, c, hstack, isBlank_cons hx hs, rfl, hclose⟩
    · exact .inr (h.space hx)
  · split at hm
    · rename_i hx
      cases hm
      subst hx
      exact .inr (closesName_quote h)
    · split at hm
      · rename_i hx
        subst hx
        split at hm
        · -- an object that has just been opened may end at once
          exact .inl ⟨_, _, [], b, rfl, isBlank_nil, rfl, closes_of_deliver hm h⟩
        · cases hm
      · cases hm

theorem completes_name (hm : Machine.step ⟨stack, .name⟩ x = some m) (h : Completes m b n) :
    Completes ⟨stack, .name⟩ (x :: b) n := by
  simp only [Machine.step] at hm
  split at hm
  · rename_i hx
    cases hm
    exact ClosesName.space hx h
  · split at hm
    · rename_i hx
      cases hm
      subst hx
      exact closesName_quote h
    · cases hm

theorem completes_colon {name : Bytes} (hm : Machine.step ⟨stack, .colon name⟩ x = some m)
    (h : Completes m b n) : Completes ⟨stack, .colon name⟩ (x :: b) n := by
  simp only [Machine.step] at hm
  split at hm
  · rename_i hx
    cases hm
    obtain ⟨done, outer, s, c, hstack, hs, rfl, hvalue⟩ := h
    exact ⟨done, outer, x :: s, c, hstack, isBlank_cons hx hs, rfl, hvalue⟩
  · split at hm
    · rename_i hx
      subst hx
      split at hm
      · cases hm
        exact ⟨_, _, [], b, rfl, isBlank_nil, rfl, h⟩
      · cases hm
    · cases hm

theorem completes_nothing {node : Node} (hm : Machine.step ⟨stack, .nothing node⟩ x = some m)
    (h : Completes m b n) : Completes ⟨stack, .nothing node⟩ (x :: b) n := by
  simp only [Machine.step] at hm
  split at hm
  · rename_i hx
    cases hm
    exact ⟨isBlank_cons hx h.1, h.2⟩
  · cases hm

/-- An octet after a value that has been delivered. -/
theorem completes_delivered {delivered : Machine} (hdelivered : Machine.deliver v stack = some delivered)
    (hm : delivered.step x = some m) (h : Completes m b n) : Completes delivered (x :: b) n := by
  cases stack with
  | nil =>
    cases hdelivered
    exact completes_nothing hm h
  | cons frame stack =>
    cases frame with
    | object done => cases hdelivered
    | array done =>
      cases hdelivered
      exact completes_afterValue hm h
    | member done name =>
      cases hdelivered
      exact completes_afterValue hm h

theorem completes_number {part : NumberPart} {written : Bytes}
    (hm : Machine.step ⟨stack, .number part written⟩ x = some m) (h : Completes m b n) :
    Completes ⟨stack, .number part written⟩ (x :: b) n := by
  cases hnext : part.next? x with
  | some next =>
    simp only [Machine.step, hnext] at hm
    cases hm
    obtain ⟨c, d, hc, rfl, hclose⟩ := h
    rw [List.reverse_cons, List.append_assoc] at hclose
    exact ⟨x :: c, d, rest_cons.mpr ⟨next, hnext, hc⟩, rfl, hclose⟩
  | none =>
    -- the number is complete, and has been delivered before the octet is taken in
    have hpart : part.complete := by
      by_contra hpart
      simp [Machine.step, hnext, hpart] at hm
    rw [step_endNumber stack hpart written hnext] at hm
    obtain ⟨delivered, hdelivered, hm⟩ := Option.bind_eq_some_iff.mp hm
    refine ⟨[], x :: b, rest_nil.mpr hpart, rfl, ?_⟩
    rw [List.append_nil]
    exact closes_of_deliver hdelivered (completes_delivered hdelivered hm h)

theorem completes_word {left : Bytes} {node : Node}
    (hm : Machine.step ⟨stack, .word left node⟩ x = some m) (h : Completes m b n) :
    Completes ⟨stack, .word left node⟩ (x :: b) n := by
  rcases left with _ | ⟨last, _ | ⟨second, left⟩⟩
  · cases hm
  · simp only [Machine.step] at hm
    split at hm
    · rename_i hx
      subst hx
      exact ⟨b, rfl, closes_of_deliver hm h⟩
    · cases hm
  · simp only [Machine.step] at hm
    split at hm
    · rename_i hx
      cases hm
      subst hx
      obtain ⟨d, rfl, hclose⟩ := h
      exact ⟨d, rfl, hclose⟩
    · cases hm

/-- What a machine awaits before an octet is that octet and what it awaits then. -/
theorem completes_step {next : Machine} (hm : m.step x = some next) (h : Completes next b n) :
    Completes m (x :: b) n := by
  obtain ⟨stack, awaited⟩ := m
  -- one lemma for each thing that can be awaited
  cases awaited with
  | value =>
    simp only [Machine.step] at hm
    split at hm
    · rename_i hx
      cases hm
      exact ClosesValue.space hx h
    · exact closesValue_begin hm h
  | firstItem => exact completes_firstItem hm h
  | firstName => exact completes_firstName hm h
  | name => exact completes_name hm h
  | colon name => exact completes_colon hm h
  | string isName part written => exact completes_inString hm h
  | number part written => exact completes_number hm h
  | word left node => exact completes_word hm h
  | after => exact completes_afterValue hm h
  | nothing node => exact completes_nothing hm h

theorem completes_finish (h : m.finish = some n) : Completes m [] n := by
  unfold Machine.finish at h
  obtain ⟨stack, awaited⟩ := m
  dsimp only at h
  split at h
  · cases h
    exact ⟨isBlank_nil, rfl⟩
  · split at h
    · rename_i part written hpart
      cases h
      exact ⟨[], [], rest_nil.mpr hpart, rfl, isBlank_nil, by rw [List.append_nil]⟩
    · cases h
  · cases h

/-- What a machine reads is what it awaited. -/
theorem completes_of_readFrom (h : readFrom m b = some n) : Completes m b n := by
  induction b generalizing m with
  | nil => exact completes_finish h
  | cons x b ih =>
    rw [readFrom_cons] at h
    obtain ⟨next, hnext, h⟩ := Option.bind_eq_some_iff.mp h
    exact completes_step hnext (ih h)

/-- A text that is read is in the grammar. -/
theorem writes_of_read (h : read b = some n) : Writes n b := by
  have hread : readFrom .start b = some n := h
  obtain ⟨v, c, d, hv, rfl, hd, rfl⟩ := completes_of_readFrom hread
  exact hv.blankAfter hd

/-! ### Following a derivation -/

theorem skips_colon (stack : List Frame) (name : Bytes) : Skips ⟨stack, .colon name⟩ := by
  intro x hx
  simp [Machine.step, hx]

/-- White space after a value changes nothing. -/
theorem deliver_space (hx : isSpace x) (tail : Bytes) :
    ((Machine.deliver v stack).bind fun m => readFrom m (x :: tail))
      = (Machine.deliver v stack).bind fun m => readFrom m tail := by
  match stack with
  | [] =>
    have hskip : Machine.step ⟨[], .nothing v⟩ x = some ⟨[], .nothing v⟩ := by
      simp [Machine.step, hx]
    exact readFrom_step hskip tail
  | .array _ :: _ | .member _ _ :: _ => exact readFrom_step (skips_after _ x hx) tail
  | .object _ :: _ => rfl

theorem stops_of_space (hx : isSpace x) (tail : Bytes) : Stops (x :: tail) := by
  intro y hy
  cases hy
  simp only [isSpace, Bool.or_eq_true, beq_iff_eq] at hx
  rcases hx with ((rfl | rfl) | rfl) | rfl <;> decide

theorem readFrom_digits {isName : Bool} {digits : Bytes} (hdigits : ∀ x ∈ digits, isHexDigit x)
    {left : Nat} (hlength : digits.length = left + 1) (before tail : Bytes) :
    readFrom ⟨stack, .string isName (.hex left) before⟩ (digits ++ tail)
      = readFrom ⟨stack, .string isName .plain (digits.reverse ++ before)⟩ tail := by
  induction digits generalizing left before with
  | nil => cases hlength
  | cons x digits ih =>
    have hx : isHexDigit x := hdigits x (by simp)
    have hstep : Machine.step ⟨stack, .string isName (.hex left) before⟩ x
        = some ⟨stack, .string isName (if left = 0 then .plain else .hex (left - 1)) (x :: before)⟩ := by
      simp [Machine.step, Machine.inString, hx]
    rw [List.cons_append, readFrom_step hstep]
    rw [List.length_cons] at hlength
    by_cases hleft : left = 0
    · obtain rfl := List.length_eq_zero_iff.mp (show digits.length = 0 by omega)
      rw [if_pos hleft]
      rfl
    · rw [if_neg hleft, ih (fun y hy => hdigits y (by simp [hy])) (by omega)]
      simp

theorem readFrom_isString {isName : Bool} (h : IsString b) (before tail : Bytes) :
    readFrom ⟨stack, .string isName .plain before⟩ (b ++ tail)
      = readFrom ⟨stack, .string isName .plain (b.reverse ++ before)⟩ tail := by
  induction h generalizing before with
  | nil => rfl
  | @plain x b hcontrol hquote hbackslash h ih =>
    have hstep : Machine.step ⟨stack, .string isName .plain before⟩ x
        = some ⟨stack, .string isName .plain (x :: before)⟩ := by
      simp [Machine.step, Machine.inString, hcontrol, hquote, hbackslash]
    rw [List.cons_append, readFrom_step hstep, ih]
    simp
  | @escape x b hx h ih =>
    -- an octet after a backslash stands for itself, unless digits follow
    have hne : x ≠ 117 := by
      rintro rfl
      cases hx
    have hstep : Machine.step ⟨stack, .string isName .escape (92 :: before)⟩ x
        = some ⟨stack, .string isName .plain (x :: 92 :: before)⟩ := by
      simp [Machine.step, Machine.inString, hne, hx]
    rw [List.cons_append, List.cons_append,
      readFrom_step (n := ⟨stack, .string isName .escape (92 :: before)⟩) rfl, readFrom_step hstep, ih]
    simp
  | @code digits b hlength hdigits h ih =>
    rw [List.cons_append, List.cons_append, List.append_assoc,
      readFrom_step (n := ⟨stack, .string isName .escape (92 :: before)⟩) rfl,
      readFrom_step (n := ⟨stack, .string isName (.hex 3) (117 :: 92 :: before)⟩) rfl,
      readFrom_digits hdigits hlength, ih]
    simp

theorem readFrom_rest {part : NumberPart} {tail : Bytes} (htail : Stops tail) (h : Rest part b)
    (before : Bytes) :
    readFrom ⟨stack, .number part before⟩ (b ++ tail)
      = (Machine.deliver (.number (before.reverse ++ b)) stack).bind fun m => readFrom m tail := by
  induction b generalizing part before with
  | nil => rw [List.nil_append, readFrom_endNumber stack (rest_nil.mp h) before htail, List.append_nil]
  | cons x b ih =>
    obtain ⟨next, hnext, hrest⟩ := rest_cons.mp h
    have hstep : Machine.step ⟨stack, .number part before⟩ x
        = some ⟨stack, .number next (x :: before)⟩ := by
      simp [Machine.step, hnext]
    rw [List.cons_append, readFrom_step hstep, ih hrest]
    simp

/-- A number may begin with a minus or a digit. -/
theorem step_number {part : NumberPart} (h : NumberPart.sign.next? x = some part) :
    Machine.step ⟨stack, .value⟩ x = some ⟨stack, .number part [x]⟩ := by
  have hbegin : Machine.begin stack x = some ⟨stack, .number part [x]⟩ := by
    unfold Machine.begin
    split
    case h_8 => rw [h, Option.map_some]
    all_goals cases h
  have hspace : isSpace x = false := by
    cases hx : isSpace x with
    | false => rfl
    | true =>
      simp only [isSpace, Bool.or_eq_true, beq_iff_eq] at hx
      rcases hx with ((rfl | rfl) | rfl) | rfl <;> cases h
  simp [Machine.step, hspace, hbegin]

theorem readFrom_isNumber {tail : Bytes} (htail : Stops tail) (h : IsNumber b) :
    readFrom ⟨stack, .value⟩ (b ++ tail)
      = (Machine.deliver (.number b) stack).bind fun m => readFrom m tail := by
  rcases isNumber_iff.mp h with ⟨c, rfl, hrest⟩ | hrest
  · rw [List.cons_append, readFrom_step (n := ⟨stack, .number .sign [45]⟩) rfl,
      readFrom_rest htail hrest]
    rfl
  · cases b with
    | nil => exact absurd (rest_nil.mp hrest) (by decide)
    | cons x b =>
      obtain ⟨next, hnext, hrest⟩ := rest_cons.mp hrest
      rw [List.cons_append, readFrom_step (step_number hnext), readFrom_rest htail hrest]
      rfl

/-- A string in quotation marks is read as a name where one is awaited. -/
theorem readFrom_nameString {name : Bytes} (h : IsString name) {awaited : Awaited}
    (hawaited : awaited = .firstName ∨ awaited = .name) (done : List (Bytes × Node))
    (stack : List Frame) (tail : Bytes) :
    readFrom ⟨.object done :: stack, awaited⟩ (34 :: (name ++ [34]) ++ tail)
      = readFrom ⟨.object done :: stack, .colon name⟩ tail := by
  have hstart : Machine.step ⟨.object done :: stack, awaited⟩ 34
      = some ⟨.object done :: stack, .string true .plain []⟩ := by
    rcases hawaited with rfl | rfl <;> rfl
  have hend : Machine.step ⟨.object done :: stack, .string true .plain (name.reverse ++ [])⟩ 34
      = some ⟨.object done :: stack, .colon name⟩ := by
    simp [Machine.step, Machine.inString]
  rw [List.cons_append, readFrom_step hstart, List.append_assoc, readFrom_isString h,
    List.singleton_append, readFrom_step hend]

/-- A name, where a name is awaited. -/
theorem readFrom_writesName {name a : Bytes} {n : Node} (h : Writes n a) (hn : n = .string name)
    {awaited : Awaited} (hawaited : awaited = .firstName ∨ awaited = .name)
    (done : List (Bytes × Node)) (stack : List Frame) (tail : Bytes) :
    readFrom ⟨.object done :: stack, awaited⟩ (a ++ tail)
      = readFrom ⟨.object done :: stack, .colon name⟩ tail := by
  match h with
  | .string h =>
    cases hn
    exact readFrom_nameString h hawaited done stack tail
  | .spaceBefore hx h =>
    rw [List.cons_append, readFrom_step (skips_name _ hawaited _ hx), readFrom_writesName h hn hawaited]
  | .spaceAfter h hx =>
    rw [List.append_assoc, List.singleton_append, readFrom_writesName h hn hawaited,
      readFrom_step (skips_colon _ name _ hx)]
  | .null | .true | .false | .number _ | .noItems _ | .array _ | .noMembers _ | .object _ => cases hn

theorem readFrom_asFirst {x : UInt8} (hspace : isSpace x = false) (hclose : x ≠ 93)
    (stack : List Frame) (b : Bytes) :
    readFrom ⟨stack, .firstItem⟩ (x :: b) = readFrom ⟨stack, .value⟩ (x :: b) := by
  rw [readFrom_cons, readFrom_cons]
  simp [Machine.step, hspace, hclose]

theorem readFrom_firstNumber {b : Bytes} (h : IsNumber b) (stack : List Frame) (tail : Bytes) :
    readFrom ⟨stack, .firstItem⟩ (b ++ tail) = readFrom ⟨stack, .value⟩ (b ++ tail) := by
  rcases isNumber_iff.mp h with ⟨c, rfl, -⟩ | hrest
  · exact readFrom_asFirst (by decide) (by decide) stack _
  · cases b with
    | nil => exact absurd (rest_nil.mp hrest) (by decide)
    | cons x b =>
      obtain ⟨next, hnext, -⟩ := rest_cons.mp hrest
      refine readFrom_asFirst ?_ ?_ stack _
      · by_contra hspace
        simp only [isSpace, Bool.not_eq_false, Bool.or_eq_true, beq_iff_eq] at hspace
        rcases hspace with ((rfl | rfl) | rfl) | rfl <;> cases hnext
      · rintro rfl
        cases hnext

/-- The first item of an array is read like any other value. -/
theorem readFrom_writesFirst {n : Node} {b : Bytes} (h : Writes n b) (stack : List Frame)
    (tail : Bytes) :
    readFrom ⟨stack, .firstItem⟩ (b ++ tail) = readFrom ⟨stack, .value⟩ (b ++ tail) := by
  match h with
  | .null | .true | .false | .string _ | .noItems _ | .array _ | .noMembers _ | .object _ =>
    exact readFrom_asFirst rfl (by decide) stack _
  | .number h => exact readFrom_firstNumber h stack tail
  | .spaceBefore hx h =>
    rw [List.cons_append, readFrom_step (skips_firstItem _ _ hx), readFrom_step (skips_value _ _ hx),
      readFrom_writesFirst h]
  | .spaceAfter h hx =>
    rw [List.append_assoc, readFrom_writesFirst h]

-- by recursion on the derivation; the stack and the octets that follow are arbitrary
mutual

theorem readFrom_writes {n : Node} {b : Bytes} (h : Writes n b) (stack : List Frame) (tail : Bytes)
    (htail : Stops tail) :
    readFrom ⟨stack, .value⟩ (b ++ tail)
      = (Machine.deliver n stack).bind fun m => readFrom m tail := by
  match h with
  | .null =>
    -- the octets of a word one by one
    show readFrom _ (110 :: 117 :: 108 :: 108 :: tail) = _
    rw [readFrom_step rfl, readFrom_step rfl, readFrom_step rfl, readFrom_cons]
    rfl
  | .true =>
    show readFrom _ (116 :: 114 :: 117 :: 101 :: tail) = _
    rw [readFrom_step rfl, readFrom_step rfl, readFrom_step rfl, readFrom_cons]
    rfl
  | .false =>
    show readFrom _ (102 :: 97 :: 108 :: 115 :: 101 :: tail) = _
    rw [readFrom_step rfl, readFrom_step rfl, readFrom_step rfl, readFrom_step rfl, readFrom_cons]
    rfl
  | .number h => exact readFrom_isNumber htail h
  | .string (b := b) h =>
    have hend : Machine.step ⟨stack, .string false .plain (b.reverse ++ [])⟩ 34
        = Machine.deliver (.string b) stack := by
      simp [Machine.step, Machine.inString]
    rw [List.cons_append, readFrom_step (n := ⟨stack, .string false .plain []⟩) rfl,
      List.append_assoc, readFrom_isString h, List.singleton_append, readFrom_cons, hend]
  | .noItems hs =>
    rw [List.cons_append, List.append_assoc, readFrom_step (n := ⟨.array [] :: stack, .firstItem⟩) rfl,
      readFrom_spaces (skips_firstItem _) hs, List.singleton_append, readFrom_cons]
    rfl
  | .array h =>
    rw [List.cons_append, List.append_assoc, readFrom_step (n := ⟨.array [] :: stack, .firstItem⟩) rfl]
    -- the first item of an array is awaited in another way than the others
    refine Eq.trans ?_ (readFrom_writesItems h [] stack tail)
    cases h with
    | last h => exact readFrom_writesFirst h _ _
    | more h hrest =>
      rw [List.append_assoc, List.append_assoc]
      exact readFrom_writesFirst h _ _
  | .noMembers hs =>
    rw [List.cons_append, List.append_assoc, readFrom_step (n := ⟨.object [] :: stack, .firstName⟩) rfl,
      readFrom_spaces (skips_name _ (.inl rfl)) hs, List.singleton_append, readFrom_cons]
    rfl
  | .object h =>
    rw [List.cons_append, List.append_assoc, readFrom_step (n := ⟨.object [] :: stack, .firstName⟩) rfl]
    exact readFrom_writesMembers h (.inl rfl) [] stack tail
  | .spaceBefore hx h =>
    rw [List.cons_append, readFrom_step (skips_value _ _ hx), readFrom_writes h stack tail htail]
  | .spaceAfter h hx =>
    rw [List.append_assoc, List.singleton_append,
      readFrom_writes h stack _ (stops_of_space hx tail), deliver_space hx]

/-- Items up to the end of their array. -/
theorem readFrom_writesItems {items : List Node} {b : Bytes} (h : WritesItems items b)
    (done : List Node) (stack : List Frame) (tail : Bytes) :
    readFrom ⟨.array done :: stack, .value⟩ (b ++ 93 :: tail)
      = (Machine.deliver (.array (done.reverse ++ items)) stack).bind fun m => readFrom m tail := by
  match h with
  | .last (n := n) h =>
    have hend : Machine.step ⟨.array (n :: done) :: stack, .after⟩ 93
        = Machine.deliver (.array (n :: done).reverse) stack := rfl
    rw [readFrom_writes h _ _ (stops (.inr (.inl rfl)) tail), Machine.deliver, Option.bind_some,
      readFrom_cons, hend, List.reverse_cons]
  | .more (n := n) h hrest =>
    have hcomma : Machine.step ⟨.array (n :: done) :: stack, .after⟩ 44
        = some ⟨.array (n :: done) :: stack, .value⟩ := rfl
    rw [List.append_assoc, List.cons_append, readFrom_writes h _ _ (stops (.inl rfl) _),
      Machine.deliver, Option.bind_some, readFrom_step hcomma, readFrom_writesItems hrest]
    simp

/-- Members up to the end of their object. -/
theorem readFrom_writesMembers {members : List (Bytes × Node)} {b : Bytes} (h : WritesMembers members b)
    {awaited : Awaited} (hawaited : awaited = .firstName ∨ awaited = .name)
    (done : List (Bytes × Node)) (stack : List Frame) (tail : Bytes) :
    readFrom ⟨.object done :: stack, awaited⟩ (b ++ 125 :: tail)
      = (Machine.deliver (.object (done.reverse ++ members)) stack).bind fun m => readFrom m tail := by
  have hcolon (name : Bytes) : Machine.step ⟨.object done :: stack, .colon name⟩ 58
      = some ⟨.member done name :: stack, .value⟩ := rfl
  match h with
  | @WritesMembers.last name n _ _ hname h =>
    -- the last member is delivered, and then the object
    have hend : Machine.step ⟨.object ((name, n) :: done) :: stack, .after⟩ 125
        = Machine.deliver (.object ((name, n) :: done).reverse) stack := rfl
    rw [List.append_assoc, List.cons_append, readFrom_writesName hname rfl hawaited,
      readFrom_step (hcolon name), readFrom_writes h _ _ (stops (.inr (.inr rfl)) tail),
      Machine.deliver, Option.bind_some, readFrom_cons, hend, List.reverse_cons]
  | @WritesMembers.more name n _ _ _ _ hname h hrest =>
    have hcomma : Machine.step ⟨.object ((name, n) :: done) :: stack, .after⟩ 44
        = some ⟨.object ((name, n) :: done) :: stack, .name⟩ := rfl
    rw [List.append_assoc, List.cons_append, List.append_assoc, List.cons_append,
      readFrom_writesName hname rfl hawaited, readFrom_step (hcolon name),
      readFrom_writes h _ _ (stops (.inl rfl) _), Machine.deliver, Option.bind_some,
      readFrom_step hcomma, readFrom_writesMembers hrest (.inr rfl)]
    simp

end

/-- The reader accepts exactly what the grammar allows. -/
theorem read_eq_some_iff : read b = some n ↔ Writes n b := by
  constructor
  · exact writes_of_read
  · intro h
    have hread := readFrom_writes h [] [] stops_nil
    rw [List.append_nil] at hread
    exact hread

end Acme.Json.Node
