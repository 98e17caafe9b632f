import Acme.Proofs.Connection.Draws

/-!
# How the held nonce changes

Which nonce a connection holds after every call (`NonceLaw`), whatever it held before and whatever the
directory and the server say. A call fails and leaves the nonce that was held, or it stores one that an
answer brings; drawing does so once or twice. So a connection that holds a nonce holds one ever after
(`nonce_transitions`).
-/

namespace Acme.Connection

/-- What calls do to the nonce that a connection holds. -/
structure NonceLaw (c : Connection) : Prop where
  /-- Asking for a nonce ends in one of seven ways. -/
  renewal : Renewal c (refreshNonce c).1 (refreshNonce c).2
  /-- It succeeds exactly if the answer brings a nonce that is not held already. -/
  renewable : (refreshNonce c).1 = .ok ⟨⟩
    ↔ ∃ r d n, Asks c (.ok r) d ∧ Granted r ∧ r.nonce? = some n ∧ n ≠ c.nonce
  /-- That nonce is held then. -/
  renewed : ∀ d, refreshNonce c = (.ok ⟨⟩, d) → Renewed c d
  /-- Where it fails the nonce that was held before is still held. -/
  unrenewed : ∀ e d, refreshNonce c = (.error e, d) → d.nonce = c.nonce
  /-- An answer without a nonce is passed over. -/
  passed : ∀ r : Http.Response, r.nonce? = none → absorb r c = (.ok ⟨⟩, c)
  /-- The nonce of an answer is taken over if it is not held already. -/
  absorbed : ∀ (r : Http.Response) n, r.nonce? = some n → n ≠ ""
    ∧ (n = c.nonce → absorb r c = (.error (.duplicate n), c))
    ∧ (n ≠ c.nonce → absorb r c = (.ok ⟨⟩, { c with nonce := n }))
  /-- Drawing hands out the nonce that is held and fetches another one; where none is held it fetches one
  to hand out before. -/
  drawn : ∀ n d, consume c = (.ok n, d) →
    ((c.nonce ≠ "" ∧ n = c.nonce ∧ Renewed c d ∧ d.heads = c.heads + 1)
      ∨ (c.nonce = "" ∧ ∃ m, refreshNonce c = (.ok ⟨⟩, m) ∧ n = m.nonce ∧ Renewed c m ∧ Renewed m d
        ∧ d.heads = c.heads + 2))
    ∧ d.nonce ≠ "" ∧ d.nonce ≠ n
  /-- Where drawing fails the same nonce is held as before, but for the one that was fetched to be handed
  out. -/
  undrawn : ∀ e d, consume c = (.error e, d) →
    (refreshNonce c = (.error e, d) ∧ d.nonce = c.nonce)
    ∨ (c.nonce = "" ∧ ∃ m, refreshNonce c = (.ok ⟨⟩, m) ∧ Renewed c m
      ∧ refreshNonce m = (.error e, d) ∧ d.nonce = m.nonce)

theorem renewable_iff (c : Connection) :
    (refreshNonce c).1 = .ok ⟨⟩
      ↔ ∃ r d n, Asks c (.ok r) d ∧ Granted r ∧ r.nonce? = some n ∧ n ≠ c.nonce := by
  have hrenewal := refreshNonce_renewal c
  generalize refreshNonce c = run at hrenewal ⊢
  obtain ⟨out, d⟩ := run
  constructor
  · rintro rfl
    cases hrenewal with
    | stored h hgranted hn hnew => exact ⟨_, _, _, h, hgranted, hn, hnew⟩
  · rintro ⟨r, d, n, hasks, hgranted, hn, hnew⟩
    exact hrenewal.ok hasks hgranted hn hnew

theorem absorb_of_nonce? {c : Connection} {r : Http.Response} {n : String} (h : r.nonce? = some n) :
    absorb r c = hold n c := by
  rw [absorb, h]

theorem nonceLaw (c : Connection) : NonceLaw c where
  renewal := refreshNonce_renewal c
  renewable := renewable_iff c
  renewed d h := renewed_of_refreshNonce h
  unrenewed e d h := nonce_of_refreshNonce_error h
  passed r h := by
    rw [absorb, h]
    rfl
  absorbed r n h := by
    rw [absorb_of_nonce? h, hold_apply]
    refine ⟨ne_empty_of_nonce? h, fun hheld => ?_, fun hnew => ?_⟩
    · rw [if_pos hheld.symm]
    · rw [if_neg (Ne.symm hnew)]
  drawn n d h := by
    have hdrawing := drawing_of_consume h
    refine ⟨?_, nonce_of_consume h⟩
    generalize hout : (Except.ok n : Except NonceError String) = out at hdrawing
    cases hdrawing with
    | held hheld hrefresh =>
      cases hout
      have hrenewed := renewed_of_refreshNonce hrefresh
      exact .inl ⟨hheld, rfl, hrenewed, hrenewed.asked⟩
    | @fetched m _ hnone hfirst hsecond =>
      cases hout
      have hrenewed := renewed_of_refreshNonce hfirst
      have hagain := renewed_of_refreshNonce hsecond
      -- there was none at first, so two requests were made
      have hasked : d.heads = c.heads + 2 := by rw [hagain.asked, hrenewed.asked]
      exact .inr ⟨hnone, m, hfirst, rfl, hrenewed, hagain, hasked⟩
    | heldFailed | firstFailed | secondFailed => cases hout
  undrawn e d h := by
    cases drawing_of_consume h with
    | heldFailed _ hrefresh | firstFailed _ hrefresh =>
      exact .inl ⟨hrefresh, nonce_of_refreshNonce_error hrefresh⟩
    | @secondFailed m _ _ hnone hfirst hsecond =>
      exact .inr ⟨hnone, m, hfirst, renewed_of_refreshNonce hfirst, hsecond,
        nonce_of_refreshNonce_error hsecond⟩

/-- Getting from `c` to a later state by calls about nonces, between which anything may become of the
server and of the directory. -/
inductive Passes (c : Connection) : Connection → Prop
  | refl : Passes c c
  | call {d : Connection} (h : Passes c d) (a : NonceCall) : Passes c (a.run d)
  | elsewhere {d : Connection} (h : Passes c d) (server : Http.Script)
    (directory : Option (List (String × Json))) : Passes c { d with server, directory }

/-- A call never takes the last nonce away. -/
theorem NonceLaw.nonempty {c : Connection} (law : NonceLaw c) (hheld : c.nonce ≠ "") (a : NonceCall) :
    (a.run c).nonce ≠ "" := by
  cases a with
  | prepare route r => exact hheld
  | refresh =>
    show (refreshNonce c).2.nonce ≠ ""
    rcases hrun : refreshNonce c with ⟨r, d⟩
    cases r with
    | error e => rwa [law.unrenewed e d hrun]
    | ok _ => exact (law.renewed d hrun).nonempty
  | absorb r =>
    show (absorb r c).2.nonce ≠ ""
    cases hnonce : r.nonce? with
    | none => rwa [law.passed r hnonce]
    | some n =>
      obtain ⟨hne, hsame, hnew⟩ := law.absorbed r n hnonce
      by_cases hn : n = c.nonce
      · rwa [hsame hn]
      · rwa [hnew hn]
  | consume =>
    show (consume c).2.nonce ≠ ""
    rcases hrun : consume c with ⟨r, d⟩
    cases r with
    | ok n => exact (law.drawn n d hrun).2.1
    | error e =>
      -- a draw may fail before anything was held, but something was held
      rcases law.undrawn e d hrun with ⟨-, hkept⟩ | ⟨hnone, -⟩
      · rwa [hkept]
      · exact absurd hnone hheld

/-- Whatever nonce a connection holds, and whatever the directory and the server say, calls about nonces
keep to the law; and a connection that holds a nonce at some time holds one ever after. -/
theorem nonce_transitions (c : Connection) :
    NonceLaw c ∧ ∀ d, Passes c d → c.nonce ≠ "" → d.nonce ≠ "" := by
  refine ⟨nonceLaw c, fun d hpasses hheld => ?_⟩
  induction hpasses with
  | refl => exact hheld
  | call _ a ih => exact (nonceLaw _).nonempty ih a
  | elsewhere _ server directory ih => exact ih

end Acme.Connection
