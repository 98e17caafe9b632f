import Acme.Jws.Sign
import Acme.Proofs.Connection.Steps

/-!
# Conversations

How a client gets from one state of its connection to a later one. Apart from requests that nobody
signs, it sends letters: for each of them it draws a nonce, signs the letter with that nonce, and
sends it at once. `Converses` is parametrised by the letters that may be sent, and `exists_carried`
finds for every signed request the letter that it carries and the nonce that was drawn for it.
-/

namespace Acme

/-- What is to be signed and sent. -/
structure Letter where
  plan : SignPlan
  url : String
  payload : Bytes

namespace Connection

/-- The requests that a server has recorded over a connection. -/
def requests (c : Connection) : List Http.Request := c.server.requests

/-- Getting from `c` to a later state by requests without signature and letters that are allowed. -/
inductive Converses (allowed : Letter → Prop) (c : Connection) : Connection → Prop
  | refl : Converses allowed c c
  /-- The directory or a nonce is fetched. -/
  | quiet {d : Connection} {a : Step} (h : Converses allowed c d) (ha : a.isQuiet) :
    Converses allowed c (a.run d)
  /-- A resource is fetched without a signature. -/
  | get {d : Connection} {url : String} (h : Converses allowed c d) :
    Converses allowed c ((Step.get url).run d)
  /-- A letter is signed with a nonce that is drawn for it, and sent. -/
  | post {d e : Connection} {l : Letter} {n : String} {m : SignedJws} (h : Converses allowed c d)
    (hl : allowed l) (hdraw : consume d = (.ok n, e))
    (hsign : l.plan.sign (some n) l.url l.payload = .ok m) :
    Converses allowed c ((Step.post l.url m.serialized).run e)

namespace Converses

variable {allowed : Letter → Prop} {c d e : Connection}

theorem trans (h : Converses allowed c d) (h' : Converses allowed d e) : Converses allowed c e := by
  induction h' with
  | refl => exact h
  | quiet _ ha ih => exact ih.quiet ha
  | get _ ih => exact ih.get
  | post _ hl hdraw hsign ih => exact ih.post hl hdraw hsign

theorem quiets (h : Converses allowed c d) {steps : List Step} (hquiet : ∀ a ∈ steps, a.isQuiet) :
    Converses allowed c (d.after steps) := by
  induction steps generalizing d with
  | nil => exact h
  | cons a steps ih =>
    exact ih (h.quiet (hquiet a (by simp))) fun b hb => hquiet b (by simp [hb])

end Converses

/-! ### Signed requests -/

theorem requests_run (c : Connection) (a : Step) :
    (a.run c).requests = c.requests ++ (a.request? c).toList :=
  Step.requests_run c a

theorem Step.method_of_isQuiet {c : Connection} {a : Step} (h : a.isQuiet) {q : Http.Request}
    (hq : a.request? c = some q) : q.method ≠ .post := by
  cases a with
  | directory => cases hq; exact Http.Method.get_ne_post
  | head url => cases hq; exact Http.Method.head_ne_post
  | get url => cases h
  | post url body => cases h
  | prepare route r => cases h

/-- The signed requests that were sent over a connection. -/
def posts (c : Connection) : List Http.Request := c.requests.filter (·.method = .post)

theorem posts_run {c : Connection} {a : Step} (h : ∀ q, a.request? c = some q → q.method ≠ .post) :
    (a.run c).posts = c.posts := by
  rw [posts, requests_run, List.filter_append]
  cases hrequest : a.request? c with
  | none => simp [posts]
  | some q => simp [posts, h q hrequest]

theorem posts_after {c : Connection} {steps : List Step} (h : ∀ a ∈ steps, a.isQuiet) :
    (c.after steps).posts = c.posts := by
  induction steps generalizing c with
  | nil => rfl
  | cons a steps ih =>
    rw [after_cons, ih fun b hb => h b (by simp [hb])]
    exact posts_run fun q hq => Step.method_of_isQuiet (h a (by simp)) hq

theorem posts_resolve (c : Connection) (name : String) : (resolve name c).2.posts = c.posts := by
  obtain ⟨steps, hsteps, hquiet, -⟩ := (resolve_looked c name).steps
  rw [hsteps, posts_after hquiet]

theorem posts_consume (c : Connection) : (consume c).2.posts = c.posts := by
  obtain ⟨steps, hsteps, hquiet, -⟩ := consume_steps c
  rw [hsteps, posts_after hquiet]

/-- Drawing a nonce adds requests, but none that is signed. -/
theorem requests_consume (c : Connection) :
    ∃ added, (consume c).2.requests = c.requests ++ added ∧ ∀ q ∈ added, q.method ≠ .post := by
  obtain ⟨steps, hsteps, hquiet, -⟩ := consume_steps c
  refine ⟨steps.filterMap (Step.request? c), ?_, ?_⟩
  · rw [hsteps]
    exact requests_after c steps
  · intro q hq
    obtain ⟨a, ha, hrequest⟩ := List.mem_filterMap.mp hq
    exact Step.method_of_isQuiet (hquiet a ha) hrequest

/-- Every signed request among those that were added on the way from `c` to `d` carries a letter,
signed with the nonce that was drawn for it right before. -/
def Carried (allowed : Letter → Prop) (c d : Connection) (added : List Http.Request) : Prop :=
  ∀ before q rest, added = before ++ q :: rest → q.method = .post →
    ∃ l n m b e, allowed l ∧ Converses allowed c b ∧ consume b = (.ok n, e)
      ∧ e.requests = c.requests ++ before ∧ l.plan.sign (some n) l.url l.payload = .ok m
      ∧ q = .post l.url Http.joseJson m.serialized
      ∧ Converses allowed ((Step.post l.url m.serialized).run e) d

theorem split_append {α : Type} {xs ys before rest : List α} {q : α}
    (h : xs ++ ys = before ++ q :: rest) :
    (∃ left, xs = before ++ q :: left) ∨ ∃ mid, before = xs ++ mid ∧ ys = mid ++ q :: rest := by
  rcases List.append_eq_append_iff.mp h with ⟨mid, hbefore, hys⟩ | ⟨left, hxs, hrest⟩
  · exact .inr ⟨mid, hbefore, hys⟩
  · cases left with
    | nil => exact .inr ⟨[], by simpa using hxs.symm, by simpa using hrest.symm⟩
    | cons p left =>
      rw [List.cons_append, List.cons.injEq] at hrest
      exact .inl ⟨left, by rw [hxs, hrest.1]⟩

theorem Carried.append {allowed : Letter → Prop} {c d e : Connection} {added more : List Http.Request}
    (h : Carried allowed c d added) (hgo : ∀ b, Converses allowed b d → Converses allowed b e)
    (hmore : ∀ q ∈ more, q.method ≠ .post) : Carried allowed c e (added ++ more) := by
  intro before q rest hsplit hpost
  rcases split_append hsplit with ⟨left, hleft⟩ | ⟨mid, -, hmid⟩
  · obtain ⟨l, n, m, b, f, hl, hb, hdraw, hrequests, hsign, hq, hrest⟩ := h before q left hleft hpost
    exact ⟨l, n, m, b, f, hl, hb, hdraw, hrequests, hsign, hq, hgo _ hrest⟩
  · exact absurd hpost (hmore q (by rw [hmid]; simp))

/-- The signed requests of a conversation, one after another. -/
theorem Converses.exists_carried {allowed : Letter → Prop} {c d : Connection}
    (h : Converses allowed c d) :
    ∃ added, d.requests = c.requests ++ added ∧ Carried allowed c d added := by
  induction h with
  | refl => exact ⟨[], by simp, fun before q rest h => by simp at h⟩
  | @quiet d a _ ha ih =>
    obtain ⟨added, hadded, hcarried⟩ := ih
    refine ⟨added ++ (a.request? d).toList, ?_, ?_⟩
    · rw [requests_run, hadded, List.append_assoc]
    · apply hcarried.append fun b hb => hb.quiet ha
      intro q hq
      exact Step.method_of_isQuiet ha (by simpa using hq)
  | @get d url _ ih =>
    obtain ⟨added, hadded, hcarried⟩ := ih
    refine ⟨added ++ [.get url], ?_, ?_⟩
    · rw [requests_run, hadded, List.append_assoc]
      rfl
    · apply hcarried.append fun b hb => hb.get
      intro q hq
      rw [List.mem_singleton.mp hq]
      exact Http.Method.get_ne_post
  | @post d e l n m hd hl hdraw hsign ih =>
    -- drawing the nonce adds requests of its own, which come before the one that carries the letter
    obtain ⟨added, hadded, hcarried⟩ := ih
    obtain ⟨drawn, hdrawn, hquiet⟩ := requests_consume d
    rw [hdraw] at hdrawn
    have hrequests : e.requests = c.requests ++ (added ++ drawn) := by
      rw [hdrawn, hadded, List.append_assoc]
    refine ⟨(added ++ drawn) ++ [.post l.url Http.joseJson m.serialized], ?_, ?_⟩
    · rw [requests_run, hrequests, List.append_assoc _ (added ++ drawn)]
      rfl
    · have hgo : ∀ b, Converses allowed b d →
          Converses allowed b ((Step.post l.url m.serialized).run e) :=
        fun b hb => hb.post hl hdraw hsign
      intro before q rest hsplit hpost
      rcases split_append hsplit with ⟨left, hleft⟩ | ⟨mid, hbefore, hmid⟩
      · exact hcarried.append hgo hquiet before q left hleft hpost
      · -- nothing comes after the new request, so it is the one that was asked for
        cases mid with
        | nil =>
          rw [List.nil_append, List.cons.injEq] at hmid
          rw [List.append_nil] at hbefore
          exact ⟨l, n, m, d, e, hl, hd, hdraw, by rw [hbefore, hrequests], hsign, hmid.1.symm, .refl⟩
        | cons p mid => simp at hmid

end Connection

end Acme
