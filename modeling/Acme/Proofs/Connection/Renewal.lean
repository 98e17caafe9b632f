import Acme.Proofs.Connection.Conversation

/-!
# Asking for nonces and drawing them

What asking for a nonce and drawing one can come to. `Renewal` has one case for every way in which a
request for a nonce ends, and `Drawing` one for every way in which drawing does: a nonce that is held is
handed out at the price of one renewal, and where none is held a first renewal comes before.
-/

namespace Acme.Connection

open Stateful

/-- How many requests for a nonce a server has recorded. -/
def heads (c : Connection) : Nat := c.requests.countP (·.method = .head)

/-! ### Asking for a nonce -/

/-- The directory says where to ask for a nonce, and this is what comes back from there. The connection
is then `d`. -/
def Asks (c : Connection) (reply : Except Http.TransportError Http.Response) (d : Connection) : Prop :=
  ∃ url looked, resolve Endpoint.newNonce.name c = (.ok (some url), looked)
    ∧ (looked.server.respond (.head url)).1 = reply
    ∧ d = { looked with server := (looked.server.respond (.head url)).2 }

/-- Whether an answer to a request for a nonce is a success. -/
def Granted (r : Http.Response) : Prop := r.status = .ok ∨ r.status = .noContent

/-- How asking for a nonce ends. -/
inductive Renewal (c : Connection) : Except NonceError Unit → Connection → Prop
  | directory {e : DirectoryError} {d : Connection}
    (h : resolve Endpoint.newNonce.name c = (.error e, d)) : Renewal c (.error (.directory e)) d
  | noEndpoint {d : Connection} (h : resolve Endpoint.newNonce.name c = (.ok none, d)) :
    Renewal c (.error .noEndpoint) d
  | transport {e : Http.TransportError} {d : Connection} (h : Asks c (.error e) d) :
    Renewal c (.error (.transport e)) d
  | status {r : Http.Response} {d : Connection} (h : Asks c (.ok r) d) (hdenied : ¬Granted r) :
    Renewal c (.error (.unexpectedStatus r.status)) d
  | missing {r : Http.Response} {d : Connection} (h : Asks c (.ok r) d) (hgranted : Granted r)
    (hnone : r.nonce? = none) : Renewal c (.error .missing) d
  | duplicate {r : Http.Response} {d : Connection} (h : Asks c (.ok r) d) (hgranted : Granted r)
    (hheld : r.nonce? = some c.nonce) : Renewal c (.error (.duplicate c.nonce)) d
  | stored {r : Http.Response} {d : Connection} {n : String} (h : Asks c (.ok r) d)
    (hgranted : Granted r) (hn : r.nonce? = some n) (hnew : n ≠ c.nonce) :
    Renewal c (.ok ⟨⟩) { d with nonce := n }

theorem resolve_keeps (c : Connection) (name : String) :
    (resolve name c).2.nonce = c.nonce ∧ (resolve name c).2.heads = c.heads := by
  rcases resolve_looked c name with h | h
  · rw [h]
    exact ⟨rfl, rfl⟩
  · rw [h]
    refine ⟨rfl, ?_⟩
    rw [heads, requests_run, List.countP_append]
    rfl

/-- A request for a nonce is recorded, and the nonce that is held is not touched by it. -/
theorem Asks.keeps {c d : Connection} {reply : Except Http.TransportError Http.Response}
    (h : Asks c reply d) : d.nonce = c.nonce ∧ d.heads = c.heads + 1 := by
  obtain ⟨url, looked, hlook, -, rfl⟩ := h
  have hkept := resolve_keeps c Endpoint.newNonce.name
  rw [hlook] at hkept
  obtain ⟨hnonce, hheads⟩ := hkept
  refine ⟨hnonce, ?_⟩
  rw [← hheads, heads, requests, Http.Script.requests_respond, List.countP_append]
  rfl

theorem Asks.unique {c d e : Connection} {reply other : Except Http.TransportError Http.Response}
    (h : Asks c reply d) (h' : Asks c other e) : reply = other ∧ d = e := by
  obtain ⟨url, looked, hlook, rfl, rfl⟩ := h
  obtain ⟨url', looked', hlook', rfl, rfl⟩ := h'
  rw [hlook] at hlook'
  cases hlook'
  exact ⟨rfl, rfl⟩

theorem refreshNonce_renewal (c : Connection) : Renewal c (refreshNonce c).1 (refreshNonce c).2 := by
  rw [refreshNonce, bind_apply, adapt_apply]
  -- first the URL is looked up, then the server is asked
  rcases hlook : resolve Endpoint.newNonce.name c with ⟨found, looked⟩
  have hheld := (resolve_keeps c Endpoint.newNonce.name).1
  rw [hlook] at hheld
  rcases found with e | _ | url
  · exact .directory hlook
  · exact .noEndpoint hlook
  · simp only [mapError_ok]
    rw [requestNonce, bind_apply, adapt_apply, send_apply]
    have hasks {reply : Except Http.TransportError Http.Response}
        (h : (looked.server.respond (.head url)).1 = reply) :
        Asks c reply { looked with server := (looked.server.respond (.head url)).2 } :=
      ⟨url, looked, hlook, h, rfl⟩
    cases hreply : (looked.server.respond (.head url)).1 with
    | error e => exact .transport (hasks hreply)
    | ok r =>
      simp only [mapError_ok]
      by_cases hdenied : r.status ≠ .ok ∧ r.status ≠ .noContent
      · rw [if_pos hdenied]
        exact .status (hasks hreply) (not_or.mpr hdenied)
      · rw [if_neg hdenied]
        have hgranted : Granted r := Classical.byContradiction fun h => hdenied (not_or.mp h)
        cases hnonce : r.nonce? with
        | none => exact .missing (hasks hreply) hgranted hnonce
        | some n =>
          show Renewal c (hold n _).1 (hold n _).2
          rw [hold_apply]
          -- the nonce that the answer brings is compared with the one that is held
          by_cases hsame : looked.nonce = n
          · obtain rfl : n = c.nonce := hsame.symm.trans hheld
            rw [if_pos hsame]
            exact .duplicate (hasks hreply) hgranted hnonce
          · rw [if_neg hsame]
            exact .stored (hasks hreply) hgranted hnonce fun hn => hsame (hheld.trans hn.symm)

/-- A new nonce has been fetched: one request was made for it, and the answer brings it. -/
structure Renewed (c d : Connection) : Prop where
  brought : ∃ r e, Asks c (.ok r) e ∧ Granted r ∧ r.nonce? = some d.nonce
  nonempty : d.nonce ≠ ""
  new : d.nonce ≠ c.nonce
  asked : d.heads = c.heads + 1

theorem Renewal.renewed {c d : Connection} (h : Renewal c (.ok ⟨⟩) d) : Renewed c d := by
  cases h with
  | stored h hgranted hn hnew =>
    exact ⟨⟨_, _, h, hgranted, hn⟩, ne_empty_of_nonce? hn, hnew, h.keeps.2⟩

theorem Renewal.kept {c d : Connection} {e : NonceError} (h : Renewal c (.error e) d) :
    d.nonce = c.nonce := by
  have hresolve := (resolve_keeps c Endpoint.newNonce.name).1
  cases h with
  | directory h | noEndpoint h => rwa [h] at hresolve
  | transport h | status h _ | missing h _ _ | duplicate h _ _ => exact h.keeps.1

/-- Asking for a nonce succeeds if the answer brings a new one. -/
theorem Renewal.ok {c d : Connection} {out : Except NonceError Unit} (h : Renewal c out d)
    {r : Http.Response} {asked : Connection} {n : String} (hasks : Asks c (.ok r) asked)
    (hgranted : Granted r) (hn : r.nonce? = some n) (hnew : n ≠ c.nonce) : out = .ok ⟨⟩ := by
  cases h with
  | directory h =>
    obtain ⟨url, looked, hlook, -, -⟩ := hasks
    rw [h] at hlook
    cases hlook
  | noEndpoint h =>
    obtain ⟨url, looked, hlook, -, -⟩ := hasks
    rw [h] at hlook
    cases hlook
  -- there is only one answer, and it is not one of those that end in an error
  | transport h => cases (h.unique hasks).1
  | status h hdenied =>
    cases (h.unique hasks).1
    exact absurd hgranted hdenied
  | missing h _ hnone =>
    cases (h.unique hasks).1
    rw [hnone] at hn
    cases hn
  | duplicate h _ hheld =>
    cases (h.unique hasks).1
    rw [hheld] at hn
    cases hn
    exact absurd rfl hnew
  | stored => rfl

theorem renewed_of_refreshNonce {c d : Connection} (h : refreshNonce c = (.ok ⟨⟩, d)) :
    Renewed c d := by
  have hrenewal := refreshNonce_renewal c
  rw [h] at hrenewal
  exact hrenewal.renewed

theorem nonce_of_refreshNonce_error {c d : Connection} {e : NonceError}
    (h : refreshNonce c = (.error e, d)) : d.nonce = c.nonce := by
  have hrenewal := refreshNonce_renewal c
  rw [h] at hrenewal
  exact hrenewal.kept

/-! ### Drawing a nonce -/

/-- How drawing a nonce ends. -/
inductive Drawing (c : Connection) : Except NonceError String → Connection → Prop
  | held {d : Connection} (hheld : c.nonce ≠ "") (h : refreshNonce c = (.ok ⟨⟩, d)) :
    Drawing c (.ok c.nonce) d
  | heldFailed {d : Connection} {e : NonceError} (hheld : c.nonce ≠ "")
    (h : refreshNonce c = (.error e, d)) : Drawing c (.error e) d
  | fetched {m d : Connection} (hnone : c.nonce = "") (hfirst : refreshNonce c = (.ok ⟨⟩, m))
    (h : refreshNonce m = (.ok ⟨⟩, d)) : Drawing c (.ok m.nonce) d
  | firstFailed {d : Connection} {e : NonceError} (hnone : c.nonce = "")
    (h : refreshNonce c = (.error e, d)) : Drawing c (.error e) d
  | secondFailed {m d : Connection} {e : NonceError} (hnone : c.nonce = "")
    (hfirst : refreshNonce c = (.ok ⟨⟩, m)) (h : refreshNonce m = (.error e, d)) :
    Drawing c (.error e) d

/-- Hands out the nonce that is held and asks for the next one. -/
def handOut : Exchange NonceError String := do
  let nonce := (← get).nonce
  refreshNonce
  return nonce

theorem handOut_apply (c : Connection) :
    handOut c = match refreshNonce c with
      | (.ok _, d) => (.ok c.nonce, d)
      | (.error e, d) => (.error e, d) := by
  rw [handOut, bind_ok (get_apply c), bind_apply]
  rcases refreshNonce c with ⟨r, d⟩
  cases r <;> rfl

theorem consume_apply (c : Connection) :
    consume c = if c.nonce = "" then (refreshNonce >>= fun _ => handOut) c else handOut c := by
  rw [consume, bind_ok (get_apply c)]
  split <;> rfl

theorem consume_drawing (c : Connection) : Drawing c (consume c).1 (consume c).2 := by
  rw [consume_apply]
  split
  · rename_i hnone
    rw [bind_apply]
    rcases hfirst : refreshNonce c with ⟨r, m⟩
    cases r with
    | error e => exact .firstFailed hnone hfirst
    | ok _ =>
      simp only [handOut_apply]
      -- the nonce that has just come is handed out, and another one is fetched in its place
      rcases hsecond : refreshNonce m with ⟨r, d⟩
      cases r with
      | error e => exact .secondFailed hnone hfirst hsecond
      | ok _ => exact .fetched hnone hfirst hsecond
  · rename_i hheld
    rw [handOut_apply]
    rcases h : refreshNonce c with ⟨r, d⟩
    cases r with
    | error e => exact .heldFailed hheld h
    | ok _ => exact .held hheld h

theorem drawing_of_consume {c d : Connection} {out : Except NonceError String}
    (h : consume c = (out, d)) : Drawing c out d := by
  have hdrawing := consume_drawing c
  rwa [h] at hdrawing

/-- The nonce that is held after one has been handed out is another one. -/
theorem nonce_of_consume {c d : Connection} {n : String} (h : consume c = (.ok n, d)) :
    d.nonce ≠ "" ∧ d.nonce ≠ n := by
  generalize hout : (Except.ok n : Except NonceError String) = out at h
  cases drawing_of_consume h with
  | held _ hrefresh | fetched _ _ hrefresh =>
    cases hout
    have hrenewed := renewed_of_refreshNonce hrefresh
    exact ⟨hrenewed.nonempty, hrenewed.new⟩
  | heldFailed | firstFailed | secondFailed => cases hout

/-- A nonce that is held is the one that is handed out next. -/
theorem consume_of_ne_empty {c d : Connection} {n : String} (hne : c.nonce ≠ "")
    (h : consume c = (.ok n, d)) : n = c.nonce := by
  generalize hout : (Except.ok n : Except NonceError String) = out at h
  cases drawing_of_consume h with
  | held => exact Except.ok.inj hout
  | fetched hnone => exact absurd hnone hne
  | heldFailed | firstFailed | secondFailed => cases hout

end Acme.Connection
