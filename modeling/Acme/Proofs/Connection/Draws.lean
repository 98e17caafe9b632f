import Acme.Proofs.Connection.Ledger
import Acme.Proofs.Connection.Renewal
import Mathlib.Data.List.Chain
import Mathlib.Data.List.Nodup

/-!
# Drawing nonces

A client draws nonces from its connection, asks for new ones, and takes over those that answers bring,
in any order and whatever the server answers (`NonceCall`). A nonce is handed out no more often than
answers have brought it, and never twice in a row (`handed_within_brought`). But a new nonce is only
compared with the one that is held, so one that the server brings again after another is handed out
again (`handed_twice`).
-/

namespace Acme

open List

/-- What is done with the nonces of a connection. -/
inductive NonceCall
  | consume
  | refresh
  | absorb (r : Http.Response)
  /-- The server gets ready to give an answer to a later request. -/
  | prepare (route : Http.Method × String) (r : Http.Response)

namespace NonceCall

def run (c : Connection) : NonceCall → Connection
  | consume => (Connection.consume c).2
  | refresh => (Connection.refreshNonce c).2
  | absorb r => (Connection.absorb r c).2
  | prepare route r => { c with server := c.server.push route r }

/-- The nonce that is handed out. -/
def handed? (c : Connection) : NonceCall → Option String
  | consume => (Connection.consume c).1.toOption
  | refresh | absorb _ | prepare .. => none

/-- The nonce that comes from outside. -/
def given? : NonceCall → Option String
  | absorb r | prepare _ r => r.nonce?
  | consume | refresh => none

end NonceCall

namespace Connection

def afterCalls (c : Connection) (calls : List NonceCall) : Connection := calls.foldl NonceCall.run c

/-- The nonces that calls hand out, in their order. -/
def handed (c : Connection) : List NonceCall → List String
  | [] => []
  | a :: calls => (a.handed? c).toList ++ handed (a.run c) calls

/-! ### Storing one nonce after another -/

/-- On the way from one state to a later one nonces are stored, each of which differs from the one that
was held before. They are taken from the answers that the server has and from what is given besides. -/
structure Stores (c : Connection) (new given : List String) (d : Connection) : Prop where
  held : d.held = ((c.held ++ new).getLast?).toList
  chain : (c.held ++ new).IsChain (· ≠ ·)
  count : ∀ n, new.count n + (brought d.server.pending).count n
    ≤ (brought c.server.pending).count n + given.count n

theorem isChain_held (c : Connection) : c.held.IsChain (· ≠ ·) := by
  rw [held]
  cases c.heldNonce? with
  | none => exact .nil
  | some n => exact .singleton n

theorem isChain_held_cons {c : Connection} {n : String} {rest : List String} (hn : n ≠ c.nonce)
    (h : (n :: rest).IsChain (· ≠ ·)) : (c.held ++ n :: rest).IsChain (· ≠ ·) := by
  by_cases hempty : c.nonce = ""
  · have hnone : c.held = [] := by
      rw [held, heldNonce?, if_pos hempty]
      rfl
    rw [hnone]
    exact h
  · rw [held_of_ne_empty hempty]
    exact .cons_cons (Ne.symm hn) h

theorem isChain_stored (c : Connection) (steps : List Step) :
    (c.held ++ c.stored steps).IsChain (· ≠ ·) := by
  induction steps generalizing c with
  | nil =>
    rw [stored, List.append_nil]
    exact isChain_held c
  | cons a steps ih =>
    have hrest := ih (a.run c)
    rw [held_run] at hrest
    rw [stored]
    cases hstored : a.stored? c with
    | none =>
      rw [hstored] at hrest
      exact hrest
    | some n =>
      rw [hstored] at hrest
      have hn : n ≠ c.nonce := by
        simpa using (Option.filter_eq_some_iff.mp hstored).2
      exact isChain_held_cons hn hrest

namespace Stores

variable {c d e : Connection} {new new' given given' : List String}

theorem none (hheld : d.held = c.held)
    (hcount : ∀ n, (brought d.server.pending).count n
      ≤ (brought c.server.pending).count n + given.count n) : Stores c [] given d where
  held := by
    rw [hheld, List.append_nil, Connection.held]
    cases c.heldNonce? <;> rfl
  chain := by
    rw [List.append_nil]
    exact isChain_held c
  count n := by simpa using hcount n

/-- Steps that only the client takes are given nothing. -/
theorem steps {steps : List Step} (h : ∀ a ∈ steps, a.isQuiet) :
    Stores c (c.stored steps) [] (c.after steps) where
  held := held_after c steps
  chain := isChain_stored c steps
  count n := by
    have hcount := count_stored c steps n
    rw [prepared_of_quiet h] at hcount
    simpa [brought] using hcount

theorem trans (h : Stores c new given d) (h' : Stores d new' given' e) :
    Stores c (new ++ new') (given ++ given') e := by
  have hlast : d.held.getLast? = (c.held ++ new).getLast? := by
    rw [h.held]
    cases (c.held ++ new).getLast? <;> rfl
  refine ⟨?held, ?chain, fun n => ?count⟩
  case held => rw [h'.held, ← List.append_assoc, List.getLast?_append, List.getLast?_append, hlast]
  case chain =>
    obtain ⟨-, hnew', hbetween⟩ := List.isChain_append.mp h'.chain
    rw [hlast] at hbetween
    rw [← List.append_assoc]
    exact List.isChain_append.mpr ⟨h.chain, hnew', hbetween⟩
  case count =>
    have hfirst := h.count n
    have hrest := h'.count n
    rw [List.count_append, List.count_append]
    omega

end Stores

/-! ### Calls -/

theorem absorb_stores (c : Connection) (r : Http.Response) :
    ∃ new, Stores c new r.nonce?.toList (absorb r c).2 := by
  have hkept (given : List String) : Stores c [] given c :=
    .none rfl fun n => Nat.le_add_right _ _
  rw [absorb]
  cases hnonce : r.nonce? with
  | none => exact ⟨[], hkept _⟩
  | some n =>
    simp only [hold_apply]
    split
    · exact ⟨[], hkept _⟩
    · rename_i hnew
      have hne : n ≠ "" := ne_empty_of_nonce? hnonce
      refine ⟨[n], ?held, isChain_held_cons (Ne.symm hnew) (.singleton n), fun m => ?count⟩
      case held => rw [held_of_ne_empty hne, List.getLast?_concat]; rfl
      case count => exact Nat.le_of_eq (Nat.add_comm _ _)

/-- A call stores nonces and keeps what was handed out among them. -/
theorem call_stores {history before : List String} {c : Connection} (h : Kept history before c)
    (a : NonceCall) :
    ∃ new, Stores c new a.given?.toList (a.run c)
      ∧ Kept (history ++ new) (before ++ (a.handed? c).toList) (a.run c) := by
  -- only drawing hands out anything
  have hkept {new given : List String} {d : Connection} (hstores : Stores c new given d) :
      Kept (history ++ new) (before ++ (none : Option String).toList) d := by
    rw [Option.toList_none, List.append_nil]
    exact h.store hstores.held
  cases a with
  | refresh =>
    obtain ⟨steps, hsteps, hquiet, -⟩ := refreshNonce_steps c
    rw [NonceCall.run, hsteps]
    exact ⟨_, .steps hquiet, hkept (.steps hquiet)⟩
  | absorb r =>
    obtain ⟨new, hnew⟩ := absorb_stores c r
    exact ⟨new, hnew, hkept hnew⟩
  | prepare route r =>
    have hnone : Stores c [] r.nonce?.toList { c with server := c.server.push route r } := by
      refine .none rfl fun n => ?_
      show (brought (c.server.pending ++ [(route, r)])).count n ≤ _
      rw [brought_append, brought_cons, List.count_append]
      simp [brought]
    exact ⟨[], hnone, hkept hnone⟩
  | consume =>
    obtain ⟨steps, hsteps, hquiet, hhanded⟩ := consume_steps c
    rw [NonceCall.run, NonceCall.handed?, hsteps]
    refine ⟨_, .steps hquiet, ?_⟩
    cases hdraw : (consume c).1 with
    | error e => exact hkept (.steps hquiet)
    | ok n =>
      -- `n` is held after `first`, and replaced by what is stored in `rest`
      obtain ⟨hne, first, rest, m, rfl, hheld, hnext⟩ := hhanded n hdraw
      have hn : (c.after first).held = [n] := by
        rw [held_of_ne_empty (hheld ▸ hne), hheld]
      have hrest : (c.after first).stored rest ≠ [] := by simp [hnext]
      rw [stored_append, after_append, ← List.append_assoc]
      exact (h.store (held_after c first)).hand hn (held_after _ _) hrest

theorem calls_store {history before : List String} {c : Connection} (h : Kept history before c)
    (calls : List NonceCall) :
    ∃ new, Stores c new (calls.filterMap NonceCall.given?) (c.afterCalls calls)
      ∧ Kept (history ++ new) (before ++ c.handed calls) (c.afterCalls calls) := by
  induction calls generalizing history before c with
  | nil =>
    refine ⟨[], .none rfl fun n => Nat.le_add_right _ _, ?_⟩
    rw [handed, List.append_nil, List.append_nil]
    exact h
  | cons a calls ih =>
    obtain ⟨new, hstores, hkept⟩ := call_stores h a
    obtain ⟨more, hmore, hkept'⟩ := ih hkept
    refine ⟨new ++ more, ?_, ?_⟩
    · -- what the first call was given comes in front of what the others were
      have hgiven : (a :: calls).filterMap NonceCall.given?
          = a.given?.toList ++ calls.filterMap NonceCall.given? := by
        cases hgiven : a.given? <;> simp [hgiven]
      rw [hgiven]
      exact hstores.trans hmore
    · rw [handed, ← List.append_assoc, ← List.append_assoc]
      exact hkept'

/-! ### How often a nonce is handed out -/

/-- The nonces that calls hand out are among the one that was held at first and those that were stored
since, in this order. Of those that were stored each differs from the one before it, and there are no
more of a kind than answers have brought. So where no two answers bring the same nonce none is handed
out twice; and whatever the answers bring, none is handed out twice in direct succession. -/
theorem handed_within_brought (c : Connection) (calls : List NonceCall) :
    (∃ new, c.handed calls <+ c.held ++ new ∧ (c.held ++ new).IsChain (· ≠ ·)
        ∧ ∀ n, new.count n
          ≤ (brought c.server.pending ++ calls.filterMap NonceCall.given?).count n)
      ∧ ((c.held ++ (brought c.server.pending ++ calls.filterMap NonceCall.given?)).Nodup →
          (c.handed calls).Nodup)
      ∧ ∀ n d m e, consume (c.afterCalls calls) = (.ok n, d) → consume d = (.ok m, e) → m ≠ n := by
  have hstart : Kept c.held [] c := Sublist.refl _
  obtain ⟨new, hstores, hkept⟩ := calls_store hstart calls
  -- what has been handed out and what is still held make up all that was ever held
  have hhanded : c.handed calls <+ c.held ++ new := (sublist_append_left _ _).trans hkept
  have hcount (n : String) :
      new.count n ≤ (brought c.server.pending ++ calls.filterMap NonceCall.given?).count n := by
    have h := hstores.count n
    rw [List.count_append]
    omega
  refine ⟨⟨new, hhanded, hstores.chain, hcount⟩, fun hnodup => ?nodup, fun n d m e hn hm => ?next⟩
  case nodup =>
    rw [List.nodup_iff_count_le_one] at hnodup ⊢
    intro n
    -- counted nonce by nonce: no more than were held at first or brought
    have hle := hhanded.count_le n
    have hone := hnodup n
    have hnew := hcount n
    rw [List.count_append] at hle hone
    omega
  case next =>
    obtain ⟨hne, hother⟩ := nonce_of_consume hn
    rw [consume_of_ne_empty hne hm]
    exact hother

/-- A server that says where to ask for nonces and has some to give out. -/
def giving (nonces : List String) : Http.Script where
  pending :=
    ((.get, "https://ca/dir"), (Http.Response.ofCode 200).withJson
      (.object [("newNonce", .string "https://ca/nonce")]))
    :: nonces.map fun n =>
      ((.head, "https://ca/nonce"), (Http.Response.ofCode 200).withHeader Http.replayNonce n)
  requests := []

/-- An answer that brings the nonce that was just handed out is taken over, since another one is held
by then; and the nonce is handed out again. -/
theorem handed_twice :
    ¬ ∀ (server : Http.Script) (url : String) (calls : List NonceCall),
      ((start server url).handed calls).Nodup := by
  intro hall
  have hnodup := hall (giving ["n1", "n2", "n3"]) "https://ca/dir"
    [.consume, .absorb ((Http.Response.ofCode 200).withHeader Http.replayNonce "n1"), .consume]
  exact absurd hnodup (by decide +kernel)

end Connection

end Acme
