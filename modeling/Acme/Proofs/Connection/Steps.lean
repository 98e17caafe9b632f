import Acme.Connection.Nonce
import Acme.Proofs.Stateful

/-!
# Step by step

A conversation over a connection is a list of steps, each of which sends at most one request. A
`Step` says what is sent; `Step.run` says what becomes of the connection, and `Step.stored?` which
nonce it then holds, if that is a new one. The statements below say of every exchange which steps it
is made of; `stored` is the history of the nonces that a connection has held.
-/

namespace Acme.Connection

inductive Step
  /-- The directory is fetched. -/
  | directory
  /-- A new nonce is asked for. -/
  | head (url : String)
  /-- A resource is fetched without a signature. -/
  | get (url : String)
  /-- A signed message is sent. -/
  | post (url : String) (body : Bytes)
  /-- Nothing is sent, but the server gets ready to give an answer. -/
  | prepare (route : Http.Method × String) (r : Http.Response)

/-- An empty value in an answer counts as none. -/
theorem ne_empty_of_nonce? {r : Http.Response} {n : String} (h : r.nonce? = some n) : n ≠ "" := by
  rw [Http.Response.nonce?, Http.Response.nonEmpty?, Option.filter_eq_some_iff] at h
  rintro rfl
  exact absurd h.2 (by decide)

namespace Step

def request? (c : Connection) : Step → Option Http.Request
  | directory => some (.get c.directoryUrl)
  | head url => some (.head url)
  | get url => some (.get url)
  | post url body => some (.post url Http.joseJson body)
  | prepare .. => none

def answer? (c : Connection) (a : Step) : Option Http.Response :=
  (a.request? c).bind fun q => (c.server.respond q).1.toOption

/-- The nonce that the answer of a step brings. A request for a nonce has to succeed, and a directory
brings none; of all other answers neither the status nor the body matters. -/
def offered? (c : Connection) : Step → Option String
  | directory | prepare .. => none
  | a@(head _) =>
    ((a.answer? c).filter fun r => r.status = .ok ∨ r.status = .noContent).bind (·.nonce?)
  | a => (a.answer? c).bind (·.nonce?)

/-- The nonce that a step stores: one that is not held already. -/
def stored? (c : Connection) (a : Step) : Option String := (a.offered? c).filter (· ≠ c.nonce)

def directory? (c : Connection) : Step → Option (List (String × Json))
  | directory => (directory.answer? c).bind fun r => (directoryOf r).toOption
  | _ => none

def server (c : Connection) (a : Step) : Http.Script :=
  match a with
  | prepare route r => c.server.push route r
  | a =>
    match a.request? c with
    | some q => (c.server.respond q).2
    | none => c.server

def run (c : Connection) (a : Step) : Connection :=
  { c with
    server := a.server c
    directory := (a.directory? c).or c.directory
    nonce := (a.stored? c).getD c.nonce }

@[simp] theorem directoryUrl_run (c : Connection) (a : Step) :
    (a.run c).directoryUrl = c.directoryUrl := rfl

@[simp] theorem request?_run (c : Connection) (a b : Step) : b.request? (a.run c) = b.request? c := by
  cases b <;> rfl

theorem requests_run (c : Connection) (a : Step) :
    (a.run c).server.requests = c.server.requests ++ (a.request? c).toList := by
  cases a <;> simp [run, server, request?]

theorem nonce?_of_offered? {c : Connection} {a : Step} {n : String} (h : a.offered? c = some n) :
    ∃ r, a.answer? c = some r ∧ r.nonce? = some n := by
  cases a with
  | directory | prepare route r => cases h
  | get url | post url body => exact Option.bind_eq_some_iff.mp h
  | head url =>
    obtain ⟨r, hr, hnonce⟩ := Option.bind_eq_some_iff.mp h
    exact ⟨r, (Option.filter_eq_some_iff.mp hr).1, hnonce⟩

theorem offered?_of_stored? {c : Connection} {a : Step} {n : String} (h : a.stored? c = some n) :
    a.offered? c = some n :=
  (Option.filter_eq_some_iff.mp h).1

theorem ne_empty_of_stored? {c : Connection} {a : Step} {n : String} (h : a.stored? c = some n) :
    n ≠ "" := by
  obtain ⟨r, -, hr⟩ := nonce?_of_offered? (offered?_of_stored? h)
  exact ne_empty_of_nonce? hr

theorem answer?_of_request? {c : Connection} {a : Step} {q : Http.Request}
    (h : a.request? c = some q) : a.answer? c = (c.server.respond q).1.toOption := by
  rw [answer?, h]
  rfl

theorem server_of_request? {c : Connection} {a : Step} {q : Http.Request}
    (h : a.request? c = some q) : a.server c = (c.server.respond q).2 := by
  cases a with
  | prepare route r => cases h
  | directory | head url | get url | post url body =>
    cases h
    rfl

/-- A request without an answer is recorded, and that is all. -/
theorem run_of_error {c : Connection} {a : Step} {q : Http.Request} {e : Http.TransportError}
    (h : a.request? c = some q) (he : (c.server.respond q).1 = .error e) :
    a.run c = { c with server := (c.server.respond q).2 } := by
  have hanswer : a.answer? c = none := by
    rw [answer?_of_request? h, he]
    rfl
  have hstored : a.stored? c = none := by
    cases a <;> simp [stored?, offered?, hanswer]
  have hdirectory : a.directory? c = none := by
    cases a <;> simp [directory?, hanswer]
  rw [run, hstored, hdirectory, server_of_request? h]
  rfl

/-- Whether a step sends no signed message and leaves the server's answers alone. -/
def isQuiet : Step → Bool
  | directory | head _ => true
  | get _ | post .. | prepare .. => false

end Step

/-! ### Many steps -/

def after (c : Connection) (steps : List Step) : Connection := steps.foldl Step.run c

/-- The nonces that steps store, in their order. -/
def stored (c : Connection) : List Step → List String
  | [] => []
  | a :: steps => (a.stored? c).toList ++ stored (a.run c) steps

@[simp] theorem after_nil (c : Connection) : c.after [] = c := rfl

@[simp] theorem after_cons (c : Connection) (a : Step) (steps : List Step) :
    c.after (a :: steps) = (a.run c).after steps := rfl

@[simp] theorem after_append (c : Connection) (steps more : List Step) :
    c.after (steps ++ more) = (c.after steps).after more := List.foldl_append

@[simp] theorem stored_append (c : Connection) (steps more : List Step) :
    c.stored (steps ++ more) = c.stored steps ++ (c.after steps).stored more := by
  induction steps generalizing c with
  | nil => rfl
  | cons a steps ih => simp [stored, ih]

theorem ne_empty_of_mem_stored {c : Connection} {steps : List Step} {n : String}
    (h : n ∈ c.stored steps) : n ≠ "" := by
  induction steps generalizing c with
  | nil => cases h
  | cons a steps ih =>
    rcases List.mem_append.mp h with h | h
    · exact Step.ne_empty_of_stored? (by simpa using h)
    · exact ih h

theorem requests_after (c : Connection) (steps : List Step) :
    (c.after steps).server.requests
      = c.server.requests ++ steps.filterMap (Step.request? c) := by
  induction steps generalizing c with
  | nil => simp
  | cons a steps ih =>
    have hsame : Step.request? (a.run c) = Step.request? c := funext fun b => a.request?_run c b
    rw [after_cons, ih, Step.requests_run, hsame, List.append_assoc]
    cases h : a.request? c <;> simp [h]

/-- The nonce that is held is the last one that was stored. -/
theorem nonce_after (c : Connection) (steps : List Step) :
    (c.after steps).nonce = ((c.stored steps).getLast?).getD c.nonce := by
  induction steps generalizing c with
  | nil => rfl
  | cons a steps ih =>
    rw [after_cons, ih, stored]
    cases h : a.stored? c with
    | none => simp [Step.run, h]
    | some n =>
      cases (a.run c).stored steps with
      | nil => simp [Step.run, h]
      | cons m ms => simp [List.getLast?_cons]

/-! ### The steps of exchanges -/

open Stateful

theorem send_apply (c : Connection) (q : Http.Request) :
    send q c = ((c.server.respond q).1, { c with server := (c.server.respond q).2 }) := rfl

theorem hold_apply (c : Connection) (n : String) :
    hold n c = if c.nonce = n then (.error (.duplicate n), c) else (.ok ⟨⟩, { c with nonce := n }) := by
  rw [hold, bind_ok (get_apply c)]
  split
  · exact bind_error (throw_apply c _)
  · rfl

theorem fetchDirectory_snd (c : Connection) : (fetchDirectory c).2 = Step.directory.run c := by
  have hrequest : Step.directory.request? c = some (.get c.directoryUrl) := rfl
  rw [fetchDirectory, bind_ok (get_apply c), bind_apply, adapt_apply, send_apply]
  cases hr : (c.server.respond (.get c.directoryUrl)).1 with
  | error e => rw [Step.run_of_error hrequest hr]; rfl
  | ok r =>
    have hdirectory : Step.directory.directory? c = (directoryOf r).toOption := by
      rw [Step.directory?, Step.answer?_of_request? hrequest, hr]
      rfl
    rw [Step.run, Step.server_of_request? hrequest, hdirectory]
    simp only [mapError_ok]
    rw [bind_apply, mk_pure_apply]
    cases directoryOf r <;> rfl

theorem refreshDirectory_snd (c : Connection) :
    (refreshDirectory c).2 = Step.directory.run c := by
  rw [refreshDirectory, bind_apply, ← fetchDirectory_snd]
  rcases fetchDirectory c with ⟨r, d⟩
  cases r <;> rfl

/-- The directory has been looked at: it was there, or it was fetched. -/
def Looked (c d : Connection) : Prop := d = c ∨ d = Step.directory.run c

/-- Looking at the directory stores no nonce. -/
theorem Looked.steps {c d : Connection} (h : Looked c d) :
    ∃ steps, d = c.after steps ∧ (∀ a ∈ steps, a.isQuiet) ∧ c.stored steps = [] := by
  rcases h with rfl | rfl
  · exact ⟨[], rfl, by simp, rfl⟩
  · exact ⟨[.directory], rfl, by simp [Step.isQuiet], rfl⟩

theorem directoryMembers_looked (c : Connection) : Looked c (directoryMembers c).2 := by
  rw [directoryMembers, bind_ok (get_apply c)]
  cases c.directory with
  | some members => exact .inl rfl
  | none => exact .inr (fetchDirectory_snd c)

theorem resolve_looked (c : Connection) (name : String) : Looked c (resolve name c).2 := by
  have hresolve : (resolve name c).2 = (directoryMembers c).2 := by
    rw [resolve, bind_apply]
    rcases directoryMembers c with ⟨r, d⟩
    cases r <;> rfl
  rw [hresolve]
  exact directoryMembers_looked c

theorem termsOfService_looked (c : Connection) : Looked c (termsOfService c).2 := by
  have hterms : (termsOfService c).2 = (directoryMembers c).2 := by
    rw [termsOfService, bind_apply]
    rcases directoryMembers c with ⟨r, d⟩
    cases r with
    | error e => rfl
    | ok members =>
      simp only []
      cases members.lookup "meta" with
      | none => rfl
      | some j => cases j <;> rfl
  rw [hterms]
  exact directoryMembers_looked c

/-- Taking over a nonce after a request is the rest of the step that the request began. -/
theorem hold_snd {c : Connection} {a : Step} {q : Http.Request} {n : String}
    (h : a.request? c = some q) (hne : a ≠ .directory) (hoffered : a.offered? c = some n) :
    (hold n { c with server := (c.server.respond q).2 }).2 = a.run c := by
  have hdirectory : a.directory? c = none := by
    cases a with
    | directory => exact absurd rfl hne
    | prepare route r | head url | get url | post url body => rfl
  rw [hold_apply, Step.run, hdirectory, Step.server_of_request? h, Step.stored?, hoffered]
  by_cases hheld : c.nonce = n
  · simp [hheld, Option.filter]
  · simp [hheld, Ne.symm hheld, Option.filter]

/-- A step whose answer offers no nonce changes only the server. -/
theorem run_of_not_offered {c : Connection} {a : Step} {q : Http.Request}
    (h : a.request? c = some q) (hne : a ≠ .directory) (hoffered : a.offered? c = none) :
    { c with server := (c.server.respond q).2 } = a.run c := by
  have hdirectory : a.directory? c = none := by
    cases a with
    | directory => exact absurd rfl hne
    | prepare route r | head url | get url | post url body => rfl
  rw [Step.run, hdirectory, Step.server_of_request? h, Step.stored?, hoffered]
  rfl

/-- Asking a URL for a nonce is one step. If it succeeds, a nonce has been stored. -/
theorem requestNonce_step (c : Connection) (url : String) :
    (requestNonce url c).2 = (Step.head url).run c
      ∧ ((requestNonce url c).1 = .ok ⟨⟩ → ∃ n, (Step.head url).stored? c = some n) := by
  have hrequest : (Step.head url).request? c = some (.head url) := rfl
  have hne : Step.head url ≠ .directory := by
    intro h
    cases h
  rw [requestNonce, bind_apply, adapt_apply, send_apply]
  cases hr : (c.server.respond (.head url)).1 with
  | error e =>
    rw [Step.run_of_error hrequest hr]
    exact ⟨rfl, fun h => by cases h⟩
  | ok r =>
    have hanswer : (Step.head url).answer? c = some r := by
      rw [Step.answer?_of_request? hrequest, hr]
      rfl
    simp only [mapError_ok]
    by_cases hstatus : r.status ≠ .ok ∧ r.status ≠ .noContent
    · have hoffered : (Step.head url).offered? c = none := by
        simp [Step.offered?, hanswer, Option.filter, hstatus]
      rw [if_pos hstatus, ← run_of_not_offered hrequest hne hoffered]
      exact ⟨rfl, fun h => by cases h⟩
    · -- of an answer that is good everything depends on the nonce it brings
      have hoffered : (Step.head url).offered? c = r.nonce? := by
        have hgood : r.status = .ok ∨ r.status = .noContent := by
          by_cases hok : r.status = .ok
          · exact .inl hok
          · exact .inr (Classical.not_not.mp fun hnot => hstatus ⟨hok, hnot⟩)
        simp [Step.offered?, hanswer, Option.filter, hgood]
      rw [if_neg hstatus]
      cases hnonce : r.nonce? with
      | none =>
        rw [hnonce] at hoffered
        rw [← run_of_not_offered hrequest hne hoffered]
        exact ⟨rfl, fun h => by cases h⟩
      | some n =>
        rw [hnonce] at hoffered
        rw [← hold_snd hrequest hne hoffered]
        refine ⟨rfl, fun h => ⟨n, ?_⟩⟩
        have hheld : c.nonce ≠ n := by
          intro hheld
          change (hold n { c with server := (c.server.respond (.head url)).2 }).1 = _ at h
          rw [hold_apply, if_pos hheld] at h
          cases h
        simp [Step.stored?, hoffered, Option.filter, Ne.symm hheld]

/-- Refreshing the nonce is made of steps that send nothing signed. If it succeeds, they have stored
one nonce. -/
theorem refreshNonce_steps (c : Connection) :
    ∃ steps, (refreshNonce c).2 = c.after steps ∧ (∀ a ∈ steps, a.isQuiet)
      ∧ ((refreshNonce c).1 = .ok ⟨⟩ → ∃ n, c.stored steps = [n]) := by
  obtain ⟨looked, hlooked, hquiet, hnone⟩ := (resolve_looked c Endpoint.newNonce.name).steps
  rw [refreshNonce, bind_apply, adapt_apply, hlooked]
  cases hr : (resolve Endpoint.newNonce.name c).1 with
  | error e => exact ⟨looked, rfl, hquiet, fun h => by cases h⟩
  | ok found =>
    cases found with
    | none => exact ⟨looked, rfl, hquiet, fun h => by cases h⟩
    | some url =>
      -- the lookup stores nothing; the one nonce comes with the answer to the last request
      obtain ⟨hrun, hstored⟩ := requestNonce_step (c.after looked) url
      refine ⟨looked ++ [.head url], ?_, ?_, ?_⟩
      · rw [after_append]
        exact hrun
      · intro a ha
        rcases List.mem_append.mp ha with h | h
        · exact hquiet a h
        · rw [List.mem_singleton.mp h]
          rfl
      · intro h
        obtain ⟨n, hn⟩ := hstored h
        exact ⟨n, by simp [stored, hn, hnone]⟩

/-- A nonce that is not there yet is fetched first. -/
theorem firstNonce_steps (c : Connection) :
    ∃ r steps, (if c.nonce = "" then refreshNonce else pure ⟨⟩ : Exchange NonceError PUnit) c
        = (r, c.after steps)
      ∧ (∀ a ∈ steps, a.isQuiet) ∧ (r = .ok ⟨⟩ → (c.after steps).nonce ≠ "") := by
  by_cases hempty : c.nonce = ""
  · obtain ⟨steps, hsteps, hquiet, hok⟩ := refreshNonce_steps c
    refine ⟨(refreshNonce c).1, steps, ?_, hquiet, fun h => ?_⟩
    · rw [if_pos hempty, ← hsteps]
      rfl
    · obtain ⟨n, hn⟩ := hok h
      rw [nonce_after, hn]
      exact ne_empty_of_mem_stored (hn ▸ List.mem_singleton_self n)
  · exact ⟨.ok ⟨⟩, [], by rw [if_neg hempty]; rfl, by simp, fun _ => hempty⟩

/-- Drawing a nonce is made of steps that send nothing signed. The nonce that is handed out is held
at some point, and one more is stored after that. -/
theorem consume_steps (c : Connection) :
    ∃ steps, (consume c).2 = c.after steps ∧ (∀ a ∈ steps, a.isQuiet)
      ∧ ∀ n, (consume c).1 = .ok n → n ≠ "" ∧ ∃ first rest m, steps = first ++ rest
          ∧ (c.after first).nonce = n ∧ (c.after first).stored rest = [m] := by
  obtain ⟨r, first, hfirst, hquiet, hheld⟩ := firstNonce_steps c
  -- the first part of drawing a nonce, as one exchange that may do nothing
  have hconsume : consume c =
      ((if c.nonce = "" then refreshNonce else pure ⟨⟩ : Exchange NonceError PUnit) >>= fun _ => do
        let nonce := (← get).nonce
        refreshNonce
        return nonce) c := by
    rw [consume, bind_ok (get_apply c)]
    split
    · rfl
    · rfl
  rw [hconsume, bind_apply, hfirst]
  cases r with
  | error e => exact ⟨first, rfl, hquiet, fun n h => by cases h⟩
  | ok _ =>
    obtain ⟨rest, hrest, hquiet', hok⟩ := refreshNonce_steps (c.after first)
    have hsecond : refreshNonce (c.after first)
        = ((refreshNonce (c.after first)).1, c.after (first ++ rest)) := by
      rw [after_append, ← hrest]
      rfl
    have hboth : ∀ a ∈ first ++ rest, a.isQuiet := by
      intro a ha
      rcases List.mem_append.mp ha with h | h
      · exact hquiet a h
      · exact hquiet' a h
    refine ⟨first ++ rest, ?_, hboth, fun n h => ?_⟩
    · simp only []
      rw [bind_ok (get_apply _), bind_apply, hsecond]
      cases (refreshNonce (c.after first)).1 with
      | error e => rfl
      | ok _ => rfl
    · simp only [] at h
      rw [bind_ok (get_apply _), bind_apply, hsecond] at h
      cases hr : (refreshNonce (c.after first)).1 with
      | error e =>
        rw [hr] at h
        cases h
      | ok _ =>
        rw [hr] at h
        cases h
        obtain ⟨m, hm⟩ := hok hr
        exact ⟨hheld rfl, first, rest, m, rfl, rfl, hm⟩

end Acme.Connection
