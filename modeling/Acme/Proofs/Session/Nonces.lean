import Acme.Proofs.Connection.Ledger
import Acme.Proofs.Session.Rollover

/-!
# Nonces over whole sessions

In a session the caller may bring nonces of its own. Apart from turns that do (`Move`) the books of the
connection are in order after every turn (`accounted_run`), so over the whole session no nonce is spent
twice and none that the server has not brought (`nonces_spent_once`).
-/

namespace Acme

/-- A turn that draws its nonces from the session. -/
structure Move : Type 1 where
  turn : Turn
  sourceless : turn.nonces? = none

namespace Session

open List

def after (s : Session) (moves : List Move) : Session := s.play (moves.map Move.turn)

/-- The answers that the server gets ready. -/
def readied (moves : List Move) : List ((Http.Method × String) × Http.Response) :=
  moves.filterMap (·.turn.answer?)

theorem accounted_run {start : Connection} {given : List ((Http.Method × String) × Http.Response)}
    {s : Session} (h : start.Accounted given s.connection) (m : Move) :
    start.Accounted (given ++ m.turn.answer?.toList) (m.turn.run s).connection := by
  obtain ⟨turn, hsourceless⟩ := m
  cases turn with
  | call c b =>
    rw [Turn.answer?, Option.toList_none, List.append_nil]
    exact h.converses (Command.converses s ⟨c, b, hsourceless⟩)
  | server route r => exact h.step (.prepare route r) fun q hq => by cases hq

theorem accounted_after {start : Connection} {given : List ((Http.Method × String) × Http.Response)}
    {s : Session} (h : start.Accounted given s.connection) (moves : List Move) :
    start.Accounted (given ++ readied moves) (s.after moves).connection := by
  induction moves generalizing given s with
  | nil => simpa [after, play, readied] using h
  | cons m moves ih =>
    have hmoves := ih (accounted_run h m)
    cases hanswer : m.turn.answer? <;> simpa [after, play, readied, hanswer] using hmoves

/-- The message inside the one that a change of keys posts has no nonce. -/
theorem nonce_inner_rollover (s : Session) (k : KeyPair) :
    ∃ added, (rollover k s).2.connection.posts = s.connection.posts ++ added ∧
      ∀ q ∈ added, ∃ outer inner, Jws.parse q.body = .ok outer
        ∧ Jws.parse outer.payload = .ok inner ∧ inner.header.nonce = none := by
  rcases rollover_run s k with ⟨e, c, hrun, hposts⟩ | ⟨a, url, looked, oldKey, body, inner, n, drawn,
    m, -, -, -, -, -, hinner, -, hdrawn, hsign, hrun⟩
  · refine ⟨[], ?_, by simp⟩
    rw [hrun, List.append_nil]
    exact hposts
  · -- of the one message that is posted, the payload is the other message
    obtain ⟨houter, -, hpayload, -⟩ := Jws.signHeader_ok hsign
    obtain ⟨newKey, -, hinner⟩ := Jws.signInner_ok hinner
    obtain ⟨hparse, hheader, -, -⟩ := Jws.signHeader_ok hinner
    refine ⟨[.post url Http.joseJson m.serialized], ?_, fun q hq => ?_⟩
    · rw [hrun, connection_send_bind _ _ _ _ fun _ => replaceKey_silent a k, posts_post, hdrawn]
    · rw [List.mem_singleton] at hq
      subst hq
      refine ⟨m.parsed, inner.parsed, houter, ?_, ?_⟩
      · rw [hpayload]
        exact hparse
      · rw [hheader]

/-- Nonces over a session of any moves, from a connection over which nothing has been said. The
connection has taken steps with the answers that the moves prepared. The nonces of the signed requests
are a subsequence of those that the steps stored, each of which some answer brought; so if no two
stored ones are the same, no two spent ones are. The inner message of a change of keys spends none. -/
theorem nonces_spent_once (config : Config) (table : AccountTable)
    (answers : List ((Http.Method × String) × Http.Response)) (moves : List Move) :
    let start : Connection := .start ⟨answers, []⟩ config.directoryUrl
    let s : Session := Session.after ⟨config, start, table⟩ moves
    ∃ steps spent,
      s.connection = start.after steps
        ∧ Connection.prepared steps = readied moves
        ∧ s.connection.posts.map Http.Request.nonce? = spent.map some
        ∧ spent <+ start.stored steps
        ∧ (∀ n ∈ start.stored steps, ∃ answer ∈ answers ++ readied moves,
            answer.2.nonce? = some n)
        ∧ ((start.stored steps).Nodup → spent.Nodup)
        ∧ ∀ k, ∃ added, (rollover k s).2.connection.posts = s.connection.posts ++ added
            ∧ ∀ q ∈ added, ∃ outer inner, Jws.parse q.body = .ok outer
              ∧ Jws.parse outer.payload = .ok inner ∧ inner.header.nonce = none := by
  intro start s
  obtain ⟨steps, handed, spent, hsteps, hprepared, hbalanced, hspent, hposts⟩ :=
    accounted_after (s := ⟨config, start, table⟩)
      (Connection.Accounted.fresh ⟨answers, []⟩ config.directoryUrl rfl) moves
  -- what was spent was handed out, and what was handed out had been stored
  have hstored : spent <+ start.stored steps :=
    hspent.trans ((sublist_append_left _ _).trans hbalanced)
  refine ⟨steps, spent, hsteps, hprepared, hposts, hstored, fun n hn => ?_,
    fun h => h.sublist hstored, nonce_inner_rollover s⟩
  obtain ⟨answer, hanswer, hnonce⟩ := Connection.exists_answer_of_mem_stored hn
  rw [hprepared] at hanswer
  exact ⟨answer, hanswer, hnonce⟩

end Session

end Acme
