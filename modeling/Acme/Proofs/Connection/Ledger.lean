import Acme.Proofs.Connection.Conversation
import Acme.Proofs.Jws.RoundTrip

/-!
# Every nonce is spent once

The books of a conversation: the nonces that were stored, those of them that were handed out, and
those that signed requests carry. The invariant is that what was handed out, followed by the nonce
that is held, is a subsequence of what was stored (`Balanced`). Storing a nonce appends to the right
and moves the left on; handing one out happens only together with storing the next. So a nonce that
has been handed out is never held again.
-/

namespace Acme

/-- The nonce in the message that a request carries. -/
def Http.Request.nonce? (q : Http.Request) : Option String :=
  match Jws.parse q.body with
  | .ok m => m.header.nonce
  | .error _ => none

namespace Connection

open List

def held (c : Connection) : List String := c.heldNonce?.toList

def prepared (steps : List Step) : List ((Http.Method × String) × Http.Response) :=
  steps.filterMap fun
    | .prepare route r => some (route, r)
    | _ => none

/-- What was handed out and what is held are among a history of what was stored, in this order. -/
def Kept (history handed : List String) (c : Connection) : Prop := handed ++ c.held <+ history

/-- The same of the history of steps. -/
def Balanced (start : Connection) (steps : List Step) (handed : List String) : Prop :=
  handed ++ (start.after steps).held <+ start.stored steps

theorem held_of_ne_empty {c : Connection} (h : c.nonce ≠ "") : c.held = [c.nonce] := by
  rw [held, heldNonce?, if_neg h]
  rfl

theorem held_run (c : Connection) (a : Step) :
    (a.run c).held = match a.stored? c with
      | some n => [n]
      | none => c.held := by
  cases h : a.stored? c with
  | none => simp [held, heldNonce?, Step.run, h]
  | some n =>
    have hne : (a.run c).nonce ≠ "" := by
      simpa [Step.run, h] using Step.ne_empty_of_stored? h
    rw [held_of_ne_empty hne]
    simp [Step.run, h]

/-- What is held is the last that was stored. -/
theorem held_after (c : Connection) (steps : List Step) :
    (c.after steps).held = ((c.held ++ c.stored steps).getLast?).toList := by
  induction steps generalizing c with
  | nil =>
    rw [after_nil, stored, List.append_nil, held]
    cases c.heldNonce? <;> rfl
  | cons a steps ih =>
    rw [after_cons, ih, held_run, stored]
    cases a.stored? c with
    | none => rfl
    | some n => simp [List.getLast?_cons]

namespace Kept

variable {history handed new : List String} {c d : Connection}

/-- What is stored takes the place of what is held. -/
theorem store (h : Kept history handed c) (hheld : d.held = ((c.held ++ new).getLast?).toList) :
    Kept (history ++ new) handed d := by
  rw [Kept, hheld]
  cases hnew : new.getLast? with
  | none =>
    obtain rfl : new = [] := List.getLast?_eq_none_iff.mp hnew
    rw [List.append_nil, List.append_nil]
    rw [Kept] at h
    rw [held] at h ⊢
    cases hc : c.heldNonce? <;> simpa [hc] using h
  | some m =>
    obtain ⟨between, rfl⟩ := List.getLast?_eq_some_iff.mp hnew
    have hbefore : handed <+ history ++ between :=
      (sublist_append_left _ _).trans (h.trans (sublist_append_left _ _))
    rw [← List.append_assoc, ← List.append_assoc, List.getLast?_concat]
    exact hbefore.append (Sublist.refl [m])

/-- What is held is handed out while something else is stored. -/
theorem hand {n : String} (h : Kept history handed c) (hn : c.held = [n])
    (hheld : d.held = ((c.held ++ new).getLast?).toList) (hnew : new ≠ []) :
    Kept (history ++ new) (handed ++ [n]) d := by
  obtain ⟨m, hm⟩ := Option.ne_none_iff_exists'.mp (mt List.getLast?_eq_none_iff.mp hnew)
  obtain ⟨between, rfl⟩ := List.getLast?_eq_some_iff.mp hm
  rw [Kept, hn] at h
  rw [Kept, hheld, ← List.append_assoc, ← List.append_assoc, List.getLast?_concat]
  exact (h.trans (sublist_append_left _ _)).append (Sublist.refl [m])

end Kept

namespace Balanced

variable {start : Connection} {steps : List Step} {handed : List String}

theorem append (h : Balanced start steps handed) (more : List Step) :
    Balanced start (steps ++ more) handed := by
  rw [Balanced, after_append, stored_append]
  exact Kept.store h (held_after _ _)

theorem step (h : Balanced start steps handed) (a : Step) :
    Balanced start (steps ++ [a]) handed := h.append [a]

/-- A nonce that is held is handed out while the next one is stored. -/
theorem draw {n m : String} {more : List Step} (h : Balanced start steps handed)
    (hheld : (start.after steps).nonce = n) (hne : n ≠ "")
    (hnext : (start.after steps).stored more = [m]) :
    Balanced start (steps ++ more) (handed ++ [n]) := by
  have hn : (start.after steps).held = [n] := by
    rw [held_of_ne_empty (hheld ▸ hne), hheld]
  have hmore : (start.after steps).stored more ≠ [] := by simp [hnext]
  rw [Balanced, after_append, stored_append]
  exact Kept.hand h hn (held_after _ _) hmore

end Balanced

/-- A connection whose books are in order: it was reached by steps with the given answers, and the
nonces of its signed requests are among those that were stored. -/
def Accounted (start : Connection) (given : List ((Http.Method × String) × Http.Response))
    (c : Connection) : Prop :=
  ∃ steps handed spent, c = start.after steps ∧ prepared steps = given
    ∧ Balanced start steps handed ∧ spent <+ handed
    ∧ c.posts.map Http.Request.nonce? = spent.map some

theorem prepared_of_quiet {steps : List Step} (h : ∀ a ∈ steps, a.isQuiet) : prepared steps = [] := by
  rw [prepared, List.filterMap_eq_nil_iff]
  intro a ha
  have hquiet := h a ha
  cases a with
  | prepare route r => cases hquiet
  | directory | head url | get url | post url body => rfl

namespace Accounted

variable {start c d : Connection} {given : List ((Http.Method × String) × Http.Response)}

theorem fresh (server : Http.Script) (url : String) (h : server.requests = []) :
    Accounted (.start server url) [] (.start server url) := by
  refine ⟨[], [], [], rfl, rfl, ?_, .slnil, ?_⟩
  · exact .slnil
  · simp [posts, requests, Connection.start, h]

theorem step (h : Accounted start given c) (a : Step)
    (hplain : ∀ q, a.request? c = some q → q.method ≠ .post) :
    Accounted start (given ++ prepared [a]) (a.run c) := by
  obtain ⟨steps, handed, spent, rfl, rfl, hbalanced, hspent, hposts⟩ := h
  refine ⟨steps ++ [a], handed, spent, ?_, ?_, hbalanced.step a, hspent, ?_⟩
  · rw [after_append]
    rfl
  · exact List.filterMap_append
  · rw [posts_run hplain, hposts]

/-- A letter spends the nonce that is drawn for it. -/
theorem post (h : Accounted start given c) {p : SignPlan} {n url : String} {payload : Bytes}
    {m : SignedJws} (hdraw : consume c = (.ok n, d)) (hsign : p.sign (some n) url payload = .ok m) :
    Accounted start given ((Step.post url m.serialized).run d) := by
  obtain ⟨steps, handed, spent, rfl, rfl, hbalanced, hspent, hposts⟩ := h
  obtain ⟨more, hmore, hquiet, hhanded⟩ := consume_steps (start.after steps)
  rw [hdraw] at hmore hhanded
  obtain ⟨hne, first, rest, next, rfl, hheld, hnext⟩ := hhanded n rfl
  obtain ⟨hparse, hheader, -, -⟩ := Jws.signHeader_ok hsign
  -- the nonce is held after `first`; what is stored in `rest` replaces it before it is spent
  have hd : d = (start.after steps).after (first ++ rest) := hmore
  subst hd
  refine ⟨(steps ++ first) ++ rest ++ [.post url m.serialized], handed ++ [n], spent ++ [n],
    ?_, ?_, ?_, hspent.append (Sublist.refl _), ?_⟩
  · simp
  · have hnone : prepared (first ++ rest) = [] := prepared_of_quiet hquiet
    rw [prepared, List.filterMap_append] at hnone
    rw [List.append_assoc steps]
    simp [prepared, hnone]
  · have hfirst : (start.after (steps ++ first)).nonce = n := by
      rw [after_append]
      exact hheld
    have hnext' : (start.after (steps ++ first)).stored rest = [next] := by
      rw [after_append]
      exact hnext
    exact ((hbalanced.append first).draw hfirst hne hnext').step _
  · have hnonce : (Http.Request.post url Http.joseJson m.serialized).nonce? = some n := by
      unfold Http.Request.nonce? Http.Request.post
      rw [hparse]
      simp only [hheader, ProtectedHeader.make_nonce]
    have hsame : ((start.after steps).after (first ++ rest)).posts = (start.after steps).posts :=
      posts_after hquiet
    rw [posts, requests_run, List.filter_append, ← posts, hsame, List.map_append, hposts]
    simp [Step.request?, Http.Request.post, ← hnonce]

/-- A conversation keeps the books in order. -/
theorem converses {allowed : Letter → Prop} (h : Accounted start given c)
    (hcd : Converses allowed c d) : Accounted start given d := by
  induction hcd with
  | refl => exact h
  | @quiet d a _ ha ih =>
    have hquiet := ih.step a fun q hq => Step.method_of_isQuiet ha hq
    rwa [prepared_of_quiet (by simpa using ha), List.append_nil] at hquiet
  | @get d url _ ih =>
    have hget := ih.step (.get url) fun q hq => by cases hq; exact Http.Method.get_ne_post
    simpa [prepared] using hget
  | post _ _ hdraw hsign ih => exact ih.post hdraw hsign

end Accounted

/-! ### Where nonces come from -/

/-- The nonces that answers bring. -/
def brought (answers : List ((Http.Method × String) × Http.Response)) : List String :=
  answers.filterMap (·.2.nonce?)

@[simp] theorem brought_append (answers more : List ((Http.Method × String) × Http.Response)) :
    brought (answers ++ more) = brought answers ++ brought more :=
  List.filterMap_append

theorem brought_cons (entry : (Http.Method × String) × Http.Response)
    (answers : List ((Http.Method × String) × Http.Response)) :
    brought (entry :: answers) = entry.2.nonce?.toList ++ brought answers := by
  cases h : entry.2.nonce? <;> simp [brought, h]

/-- A request takes its answer away from those that are left. -/
theorem count_respond (server : Http.Script) (q : Http.Request) (n : String) :
    (brought server.pending).count n
      = ((server.respond q).1.toOption.bind (·.nonce?)).toList.count n
        + (brought (server.respond q).2.pending).count n := by
  rw [Http.Script.respond]
  cases h : Http.Script.take? q.route server.pending with
  | none => simp [Except.toOption]
  | some taken =>
    obtain ⟨r, left⟩ := taken
    obtain ⟨before, after, hpending, rfl, -⟩ := Http.Script.exists_split_of_take? h
    have hentry : brought ((q.route, r) :: after) = r.nonce?.toList ++ brought after :=
      brought_cons (q.route, r) after
    show _ = r.nonce?.toList.count n + (brought (before ++ after)).count n
    rw [hpending, brought_append, brought_append, hentry, List.count_append, List.count_append,
      List.count_append]
    omega

/-- A step stores nothing but what its answer brings. -/
theorem stored?_sublist (c : Connection) (a : Step) :
    (a.stored? c).toList <+ ((a.answer? c).bind (·.nonce?)).toList := by
  cases h : a.stored? c with
  | none => exact nil_sublist _
  | some n =>
    obtain ⟨r, hanswer, hnonce⟩ := Step.nonce?_of_offered? (Step.offered?_of_stored? h)
    simp [hanswer, hnonce]

theorem count_stored?_run (c : Connection) (a : Step) (n : String) :
    (a.stored? c).toList.count n + (brought (a.run c).server.pending).count n
      ≤ (brought c.server.pending).count n + (brought (prepared [a])).count n := by
  have hstored := (stored?_sublist c a).count_le n
  have hasked (q : Http.Request) (h : a.request? c = some q) :
      (a.stored? c).toList.count n + (brought (a.run c).server.pending).count n
        ≤ (brought c.server.pending).count n + (brought (prepared [a])).count n := by
    have hleft := count_respond c.server q n
    rw [← Step.answer?_of_request? h] at hleft
    show _ + (brought (a.server c).pending).count n ≤ _
    rw [Step.server_of_request? h]
    omega
  cases a with
  | prepare route r =>
    show _ + (brought (c.server.push route r).pending).count n ≤ _
    simp [Step.stored?, Step.offered?, Http.Script.push, prepared]
  | directory | head url | get url | post url body => exact hasked _ rfl

/-- However often a nonce is stored, so many answers have brought it. -/
theorem count_stored (c : Connection) (steps : List Step) (n : String) :
    (c.stored steps).count n + (brought (c.after steps).server.pending).count n
      ≤ (brought c.server.pending).count n + (brought (prepared steps)).count n := by
  induction steps generalizing c with
  | nil => simp [stored]
  | cons a steps ih =>
    have hfirst := count_stored?_run c a n
    have hrest := ih (a.run c)
    have hsplit : prepared (a :: steps) = prepared [a] ++ prepared steps :=
      List.filterMap_append (l := [a])
    rw [stored, after_cons, List.count_append, hsplit, brought_append, List.count_append]
    omega

/-- Every nonce that is stored was brought by an answer of the server. -/
theorem exists_answer_of_mem_stored {c : Connection} {steps : List Step} {n : String}
    (h : n ∈ c.stored steps) :
    ∃ entry ∈ c.server.pending ++ prepared steps, entry.2.nonce? = some n := by
  have hcount := count_stored c steps n
  have hstored := List.count_pos_iff.mpr h
  have hbrought : n ∈ brought (c.server.pending ++ prepared steps) := by
    apply List.count_pos_iff.mp
    rw [brought_append, List.count_append]
    omega
  exact List.mem_filterMap.mp hbrought

end Connection

end Acme
