import Acme.Proofs.Session.Authentication
import Acme.Proofs.Session.Posting

/-!
# Fetching all authorizations of an order

The authorizations are fetched one after another. A fetch is a conversation with one request for the
resource at most: `Session.FetchEnds` has one constructor for each way in which it can end, and
`Session.Sends` says what was sent meanwhile. What the fetches before a failure brought is a list of
`Gain`s, by induction on the URLs (`Session.gather`); URLs that come more than once are fetched more than
once.
-/

namespace Acme

open Stateful

/-! ### What is sent -/

namespace Session

/-- Between two sessions that differ in the connection only, these requests for resources were sent. If
they were signed, there were others besides that brought nonces for them. -/
structure Sends (s : Session) (sent : List Http.Request) (t : Session) : Prop where
  config : t.config = s.config
  table : t.table = s.table
  directoryUrl : t.connection.directoryUrl = s.connection.directoryUrl
  requests : ∃ added, t.connection.server.requests = s.connection.server.requests ++ added
    ∧ added.filter (·.method = s.fetchMethod) = sent
    ∧ ∀ q ∈ added, q ∈ sent
      ∨ s.config.postAsGet ∧ (q = .get s.connection.directoryUrl ∨ q.method = .head)

namespace Sends

variable {s t u : Session} {q : Http.Request}

theorem refl (s : Session) : s.Sends [] s := ⟨rfl, rfl, rfl, [], by simp⟩

theorem trans {sent more : List Http.Request} (h : s.Sends sent t) (h' : t.Sends more u) :
    s.Sends (sent ++ more) u := by
  obtain ⟨added, hadded, hsent, hother⟩ := h.requests
  obtain ⟨later, hlater, hmore, hother'⟩ := h'.requests
  have hmethod : t.fetchMethod = s.fetchMethod := by rw [fetchMethod, h.config, fetchMethod]
  rw [hmethod] at hmore
  rw [h.config, h.directoryUrl] at hother'
  refine ⟨h'.config.trans h.config, h'.table.trans h.table, h'.directoryUrl.trans h.directoryUrl,
    added ++ later, ?_, ?_, ?_⟩
  · rw [hlater, hadded, List.append_assoc]
  · rw [List.filter_append, hsent, hmore]
  · intro q hq
    rcases List.mem_append.mp hq with hq | hq
    · exact (hother q hq).imp_left (List.mem_append_left _)
    · exact (hother' q hq).imp_left (List.mem_append_right _)

/-- One request for a resource. -/
theorem step {a : Connection.Step} (hrequest : a.request? s.connection = some q)
    (hmethod : q.method = s.fetchMethod) :
    s.Sends [q] { s with connection := a.run s.connection } := by
  refine ⟨rfl, rfl, rfl, [q], ?_, by simp [hmethod], by simp⟩
  rw [Connection.Step.requests_run, hrequest]
  rfl

/-- A step that brings a nonce asks for the directory or for the nonce. -/
theorem quiet_step {a : Connection.Step} (hsigned : s.config.postAsGet) (ha : a.isQuiet) :
    s.Sends [] { s with connection := a.run s.connection } := by
  have hother : ∀ q ∈ (a.request? s.connection).toList,
      q.method ≠ .post ∧ (q = .get s.connection.directoryUrl ∨ q.method = .head) := by
    cases a with
    | directory => simp [Connection.Step.request?, Http.Request.get]
    | head url => simp [Connection.Step.request?, Http.Request.head]
    | get url | post url body | prepare route r => cases ha
  have hmethod : s.fetchMethod = .post := if_pos hsigned
  refine ⟨rfl, rfl, rfl, _, Connection.Step.requests_run s.connection a, ?_,
    fun q hq => .inr ⟨hsigned, (hother q hq).2⟩⟩
  rw [hmethod, List.filter_eq_nil_iff]
  exact fun q hq => by simpa using (hother q hq).1

theorem quiet (hsigned : s.config.postAsGet) {steps : List Connection.Step}
    (hquiet : ∀ a ∈ steps, a.isQuiet) :
    s.Sends [] { s with connection := s.connection.after steps } := by
  induction steps generalizing s with
  | nil => exact refl s
  | cons a steps ih =>
    obtain ⟨ha, hsteps⟩ := List.forall_mem_cons.mp hquiet
    exact (quiet_step hsigned ha).trans
      (ih (s := { s with connection := a.run s.connection }) hsigned hsteps)

end Sends

/-! ### One fetch -/

/-- How a session asks for a resource, and the connection over which it then does: by a message that the
active account signs, with a nonce that has been drawn for it, or by a request that nobody signs. -/
inductive Asks (s : Session) (url : String) : Connection.Step → Connection → Prop
  | signed {a : Account} {n : String} {drawn : Connection} {body : Bytes} {m : ParsedJws}
    (hsigned : s.config.postAsGet) (ha : s.table.active? = some a) (hregistered : a.isRegistered)
    (hdraw : Connection.consume s.connection = (.ok n, drawn))
    (hm : Authenticated ⟨a.signer, .keyId a.id⟩ n (.post url Http.joseJson body) m)
    (hempty : m.payload = []) : Asks s url (.post url body) drawn
  | anonymous (h : ¬ s.config.postAsGet) : Asks s url (.get url) s.connection

/-- What the answer to a request is good for: it has to come, with a nonce that is not held already, and
say that all is well. -/
def verdict (c : Connection) (q : Http.Request) : Except SessionError Http.Response :=
  match (c.server.respond q).1 with
  | .error e => .error (.transport e)
  | .ok r =>
    if r.nonce? = some c.nonce then .error (.nonce (.duplicate c.nonce))
    else if r.status = .ok then .ok r
    else .error (.unexpectedStatus .ok r.status r.problem? r.text)

/-- All ways in which a fetch can end, and the connection afterwards. Nothing is signed unless there is a
registered account that is active; then one nonce is drawn. -/
inductive FetchEnds (s : Session) (url : String) : Except SessionError Http.Response → Connection → Prop
  | nobody {e : SignError} (hsigned : s.config.postAsGet)
    (h : ∀ a, s.table.active? = some a → ¬ a.isRegistered) :
    FetchEnds s url (.error (.sign e)) s.connection
  | noNonce {e : NonceError} {drawn : Connection} (hsigned : s.config.postAsGet)
    (hdraw : Connection.consume s.connection = (.error e, drawn)) :
    FetchEnds s url (.error (.sign (.nonce e))) drawn
  | unsigned {a : Account} {n : String} {drawn : Connection} {e : SignError}
    (hsigned : s.config.postAsGet) (ha : s.table.active? = some a)
    (hdraw : Connection.consume s.connection = (.ok n, drawn))
    (hsign : SignPlan.sign ⟨a.signer, .keyId a.id⟩ (some n) url [] = .error e) :
    FetchEnds s url (.error (.sign e)) drawn
  | asked {step : Connection.Step} {c : Connection} {q : Http.Request} (h : s.Asks url step c)
    (hq : step.request? c = some q) : FetchEnds s url (verdict c q) (step.run c)

variable {s : Session} {c : Connection} {url : String} {q : Http.Request}

/-- The connection over which a session asks only differs from its own by what brought a nonce. -/
theorem Sends.consume (hsigned : s.config.postAsGet) {r : Except NonceError String} {drawn : Connection}
    (hdraw : Connection.consume s.connection = (r, drawn)) :
    s.Sends [] { s with connection := drawn } := by
  obtain ⟨steps, hsteps, hquiet, -⟩ := Connection.consume_steps s.connection
  rw [hdraw] at hsteps
  obtain rfl : drawn = s.connection.after steps := hsteps
  exact quiet hsigned hquiet

theorem Asks.sends {step : Connection.Step} (h : s.Asks url step c) (hq : step.request? c = some q) :
    q.url = url ∧ s.Sends [q] { s with connection := step.run c } := by
  cases h with
  | @signed _ _ _ body _ hsigned _ _ hdraw =>
    cases hq
    have hmethod : Http.Method.post = s.fetchMethod := (if_pos hsigned).symm
    exact ⟨rfl, (Sends.consume hsigned hdraw).trans
      (Sends.step (s := { s with connection := c }) (a := .post url body) rfl hmethod)⟩
  | anonymous h =>
    cases hq
    have hmethod : Http.Method.get = s.fetchMethod := (if_neg h).symm
    exact ⟨rfl, Sends.step (a := .get url) rfl hmethod⟩

/-- A fetch asks for the resource once at most. -/
theorem FetchEnds.sends {r : Except SessionError Http.Response} (h : s.FetchEnds url r c) :
    ∃ sent, s.Sends sent { s with connection := c } ∧ (sent = [] ∨ ∃ q, sent = [q] ∧ q.url = url) := by
  cases h with
  | nobody _ _ => exact ⟨[], .refl s, .inl rfl⟩
  | noNonce hsigned hdraw => exact ⟨[], .consume hsigned hdraw, .inl rfl⟩
  | unsigned hsigned _ hdraw _ => exact ⟨[], .consume hsigned hdraw, .inl rfl⟩
  | asked h hq =>
    obtain ⟨hurl, hsends⟩ := h.sends hq
    exact ⟨_, hsends, .inr ⟨_, rfl, hurl⟩⟩

theorem send_expect (step : Connection.Step) (hq : step.request? s.connection = some q)
    (hplain : step.isQuiet = false) :
    (send q >>= expect .ok) s
      = (verdict s.connection q, { s with connection := step.run s.connection }) := by
  rw [bind_apply, send_apply s hq hplain, verdict]
  cases (s.connection.server.respond q).1 with
  | error e => rfl
  | ok r =>
    have hexpect (t : Session) : expect .ok r t = (if r.status = .ok then .ok r
        else .error (.unexpectedStatus .ok r.status r.problem? r.text), t) := by
      unfold expect
      split <;> rfl
    cases hnonce : r.nonce? with
    | none => simp [hnonce, hexpect]
    | some n =>
      by_cases hheld : s.connection.nonce = n
      · simp [hnonce, hheld]
      · simp [hnonce, hheld, Ne.symm hheld, hexpect]

/-- A fetch that nobody signs is one request. -/
theorem fetch_anonymous (hanonymous : ¬ s.config.postAsGet) :
    ∃ r c, fetch url s = (r, { s with connection := c }) ∧ s.FetchEnds url r c := by
  have hfetch : fetch url s = (send (.get url) >>= expect .ok) s := by
    rw [fetch, bind_ok (get_apply s), if_neg hanonymous, getAnonymously]
  refine ⟨_, _, hfetch.trans (send_expect (.get url) rfl rfl), ?_⟩
  exact .asked (.anonymous hanonymous) rfl

/-- A fetch that is signed draws a nonce first, if there is somebody to sign. -/
theorem fetch_signed (hsigned : s.config.postAsGet) :
    ∃ r c, fetch url s = (r, { s with connection := c }) ∧ s.FetchEnds url r c := by
  have hfetch : fetch url s = ((post url []).given noOptions >>= expect .ok) s := by
    rw [fetch, bind_ok (get_apply s), if_pos hsigned, postAsGet, postDefault]
  have hpost := post_given (o := noOptions) rfl url [] s
  cases hplan : (fillDefaults s.table noOptions).plan true with
  | error e =>
    rw [hplan] at hpost
    refine ⟨_, s.connection, hfetch.trans (bind_error hpost), .nobody hsigned fun a ha hregistered => ?_⟩
    rw [SignOptions.plan_active ha hregistered rfl (.inl rfl) (.inl rfl)] at hplan
    cases hplan
  | ok p =>
    rw [hplan] at hpost
    -- options that are in order without saying anything name the active account
    obtain ⟨a, ha, hregistered, rfl⟩ := SignOptions.plan_noOptions hplan
    rcases hdraw : Connection.consume s.connection with ⟨n | n, drawn⟩
    · have hletter : postAs ⟨a.signer, .keyId a.id⟩ url [] s
          = (.error (.sign (.nonce n)), { s with connection := drawn }) := by
        rw [postAs, bind_apply, signAs_apply, hdraw]
      exact ⟨_, drawn, hfetch.trans (bind_error (hpost.trans hletter)), .noNonce hsigned hdraw⟩
    · cases hsign : SignPlan.sign ⟨a.signer, .keyId a.id⟩ (some n) url [] with
      | error e =>
        have hletter : postAs ⟨a.signer, .keyId a.id⟩ url [] s
            = (.error (.sign e), { s with connection := drawn }) := by
          rw [postAs, bind_apply, signAs_apply, hdraw]
          simp only [hsign, mapError_error]
        exact ⟨_, drawn, hfetch.trans (bind_error (hpost.trans hletter)),
          .unsigned hsigned ha hdraw hsign⟩
      | ok m =>
        obtain ⟨hm, hempty⟩ := SignPlan.authenticated hsign
        have hletter : fetch url s = (send (.post url Http.joseJson m.serialized) >>= expect .ok)
            { s with connection := drawn } := by
          rw [hfetch, post_bind s rfl hplan rfl, postAs_signed_bind s hdraw hsign]
        refine ⟨_, _, hletter.trans (send_expect (.post url m.serialized) rfl rfl), ?_⟩
        exact .asked (.signed hsigned ha hregistered hdraw hm hempty) rfl

theorem fetch_ends (s : Session) (url : String) :
    ∃ r c, fetch url s = (r, { s with connection := c }) ∧ s.FetchEnds url r c := by
  by_cases hsigned : s.config.postAsGet
  · exact fetch_signed hsigned
  · exact fetch_anonymous hsigned

/-- An answer that a fetch brings is the server's answer to its request. -/
theorem FetchEnds.answered {r : Http.Response} (h : s.FetchEnds url (.ok r) c) :
    r.status = .ok ∧ ∃ step before q, s.Asks url step before ∧ step.request? before = some q
      ∧ (before.server.respond q).1 = .ok r ∧ c = step.run before := by
  generalize hresult : (Except.ok r : Except SessionError Http.Response) = result at h
  cases h with
  | nobody _ _ => cases hresult
  | noNonce _ _ => cases hresult
  | unsigned _ _ _ _ => cases hresult
  | asked hasks hq =>
    -- the other ends are errors; here there are three ways to fail before the answer
    rename_i step before q
    unfold verdict at hresult
    split at hresult
    · cases hresult
    · rename_i answer hanswer
      split at hresult
      · cases hresult
      · split at hresult
        · rename_i hstatus
          cases hresult
          exact ⟨hstatus, step, before, q, hasks, hq, hanswer, rfl⟩
        · cases hresult

/-! ### Many fetches -/

/-- What one fetch of an authorization has brought. -/
structure Gain where
  url : String
  request : Http.Request
  answer : Http.Response
  authorization : Authorization

/-- A fetch that leads from one session to another has brought this: the server's answer to the one
request, which says that all is well and describes the authorization at the URL. -/
structure Gain.From (g : Gain) (s t : Session) : Prop where
  fetched : fetch g.url s = (.ok g.answer, t)
  asked : ∃ step before, s.Asks g.url step before ∧ step.request? before = some g.request
    ∧ (before.server.respond g.request).1 = .ok g.answer
    ∧ t = { s with connection := step.run before }
  status : g.answer.status = .ok
  described : Resource.ofBody? g.url g.answer.body = some g.authorization

/-- Fetches one after another have brought all this. -/
def Gains : List Gain → Session → Session → Prop
  | [], s, t => t = s
  | g :: gains, s, t => ∃ s', g.From s s' ∧ Gains gains s' t

theorem Gain.From.sends {g : Gain} {s t : Session} (h : g.From s t) :
    g.request.url = g.url ∧ s.Sends [g.request] t := by
  obtain ⟨step, before, hasks, hq, -, rfl⟩ := h.asked
  exact hasks.sends hq

theorem Gains.sends {gains : List Gain} {s t : Session} (h : Gains gains s t) :
    s.Sends (gains.map (·.request)) t := by
  induction gains generalizing s with
  | nil =>
    obtain rfl : t = s := h
    exact .refl t
  | cons g gains ih =>
    obtain ⟨s', hg, hgains⟩ := h
    exact hg.sends.2.trans (ih hgains)

theorem Gains.urls {gains : List Gain} {s t : Session} (h : Gains gains s t) :
    gains.map (·.request.url) = gains.map (·.url) := by
  induction gains generalizing s with
  | nil => rfl
  | cons g gains ih =>
    obtain ⟨s', hg, hgains⟩ := h
    rw [List.map_cons, List.map_cons, hg.sends.1, ih hgains]

/-- A fetch of an authorization fails: it brings no answer, or one that describes none. -/
inductive Fails (s : Session) (url : String) : SessionError → Session → Prop
  | fetch {e : SessionError} {c : Connection} (h : fetch url s = (.error e, { s with connection := c }))
    (hends : s.FetchEnds url (.error e) c) : Fails s url e { s with connection := c }
  | json {r : Http.Response} {c : Connection} (h : fetch url s = (.ok r, { s with connection := c }))
    (hends : s.FetchEnds url (.ok r) c)
    (hbody : (Resource.ofBody? url r.body : Option Authorization) = none) :
    Fails s url .json { s with connection := c }

theorem Fails.sends {s t : Session} {url : String} {e : SessionError} (h : s.Fails url e t) :
    ∃ sent, s.Sends sent t ∧ (sent = [] ∨ ∃ q, sent = [q] ∧ q.url = url) := by
  cases h with
  | fetch _ hends => exact hends.sends
  | json _ hends _ => exact hends.sends

/-- One fetch brings an authorization or fails. -/
theorem gain_or_fail (s : Session) (url : String) :
    (∃ (g : Gain) (t : Session), g.url = url ∧ g.From s t
      ∧ (fetch url >>= described url : Operation Authorization) s = (.ok g.authorization, t))
    ∨ ∃ e t, s.Fails url e t
      ∧ (fetch url >>= described url : Operation Authorization) s = (.error e, t) := by
  obtain ⟨result, c, hfetch, hends⟩ := fetch_ends s url
  cases result with
  | error e => exact .inr ⟨e, _, .fetch hfetch hends, bind_error hfetch⟩
  | ok r =>
    rw [bind_ok hfetch, described]
    cases hbody : (Resource.ofBody? url r.body : Option Authorization) with
    | none => exact .inr ⟨.json, _, .json hfetch hends hbody, rfl⟩
    | some a =>
      obtain ⟨hstatus, step, before, q, hasks, hq, hanswer, rfl⟩ := hends.answered
      refine .inl ⟨⟨url, q, r, a⟩, _, rfl, ?_, rfl⟩
      exact {
        fetched := hfetch
        asked := ⟨step, before, hasks, hq, hanswer, rfl⟩
        status := hstatus
        described := hbody }

/-- How fetching the authorizations at some URLs ends: with all of them, or with the first failure. -/
inductive Gathers (s : Session) (urls : List String) :
    Except SessionError (List Authorization) → Session → Prop
  | all {gains : List Gain} {t : Session} (h : Gains gains s t) (hurls : urls = gains.map (·.url)) :
    Gathers s urls (.ok (gains.map (·.authorization))) t
  | failed {gains : List Gain} {s' t : Session} {url : String} {later : List String} {e : SessionError}
    (h : Gains gains s s') (hurls : urls = gains.map (·.url) ++ url :: later)
    (hfails : s'.Fails url e t) : Gathers s urls (.error e) t

/-- By induction on the URLs, from whatever session they are fetched. -/
theorem gather (urls : List String) (s : Session) :
    ∃ result t, (urls.mapM fun url => fetch url >>= described url) s = (result, t)
      ∧ s.Gathers urls result t := by
  have hnone (s : Session) : Gains [] s s := rfl
  induction urls generalizing s with
  | nil => exact ⟨_, s, rfl, .all (hnone s) rfl⟩
  | cons url urls ih =>
    rw [List.mapM_cons]
    rcases gain_or_fail s url with ⟨g, s', rfl, hg, hrun⟩ | ⟨e, t, hfails, hrun⟩
    · rw [bind_ok hrun]
      -- the gain comes first, however the rest ends
      obtain ⟨result, t, hrest, hgathers⟩ := ih s'
      cases hgathers with
      | @all gains _ hgains hurls =>
        have hmore : Gains (g :: gains) s t := ⟨s', hg, hgains⟩
        exact ⟨_, t, bind_ok hrest, .all hmore (by rw [hurls, List.map_cons])⟩
      | @failed gains _ _ failing later _ hgains hurls hfails =>
        have hmore : Gains (g :: gains) s _ := ⟨s', hg, hgains⟩
        have hlater : g.url :: urls = (g :: gains).map (·.url) ++ failing :: later := by
          rw [hurls, List.map_cons, List.cons_append]
        exact ⟨_, t, bind_error hrest, .failed hmore hlater hfails⟩
    · exact ⟨_, t, bind_error hrun, .failed (hnone s) rfl hfails⟩

/-- Fetching the authorizations of an order brings one for each of its URLs in their order, each read
from the answer to the one request that was sent for it; or it ends with the first fetch that fails,
after which nothing more is sent. The order, the accounts and the configuration are as they were. A
request that is signed has the one nonce that was drawn for it. -/
theorem fetchAuthorizations_gathers (s : Session) (o : Order) :
    ∃ result t, (fetchAuthorizations o).on o s = ((result, o), t) ∧ t.table = s.table
      ∧ t.config = s.config
      ∧ match result with
        | .ok as => ∃ gains, Gains gains s t ∧ o.authorizations = gains.map (·.url)
            ∧ as = gains.map (·.authorization)
            ∧ s.Sends (gains.map (·.request)) t ∧ gains.map (·.request.url) = o.authorizations
        | .error e => ∃ gains s' url later last, Gains gains s s'
            ∧ o.authorizations = gains.map (·.url) ++ url :: later ∧ s'.Fails url e t
            ∧ s.Sends (gains.map (·.request) ++ last) t
            ∧ gains.map (·.request.url) = gains.map (·.url)
            ∧ (last = [] ∨ ∃ q, last = [q] ∧ q.url = url) := by
  obtain ⟨result, t, hrun, hgathers⟩ := gather o.authorizations s
  have hfetches : fetchAuthorizations o s = (result, t) := hrun
  have hon : (fetchAuthorizations o).on o s = ((result, o), t) := by
    rw [Operation.on, hfetches]
  cases hgathers with
  | all hgains hurls =>
    have hsends := hgains.sends
    exact ⟨_, t, hon, hsends.table, hsends.config, _, hgains, hurls, rfl, hsends,
      hgains.urls.trans hurls.symm⟩
  | failed hgains hurls hfails =>
    -- the fetch that failed has sent one request more, or none
    obtain ⟨last, hlast, hone⟩ := hfails.sends
    have hsends := hgains.sends.trans hlast
    exact ⟨_, t, hon, hsends.table, hsends.config, _, _, _, _, last, hgains, hurls, hfails, hsends,
      hgains.urls, hone⟩

/-- An authorization that stands in a state, as a server describes it. -/
def standing (status : AuthorizationStatus) : Authorization :=
  { id := "", status, identifier := .dns "example.com", challenges := [], expires := none,
    wildcard := false }

/-- A session that fetches without signatures, from a server that describes an authorization twice. -/
def inquiring : Session where
  config := { Config.default with postAsGet := false }
  connection := .start ⟨[.pending, .valid].map fun status =>
    ((.get, "https://ca/authz/1"), (Http.Response.ofCode 200).withJson (standing status).toJson), []⟩
    Config.stagingUrl
  table := .empty

/-- A URL that an order has twice is fetched twice. -/
example : (fetchAuthorizations { Order.forNames [] with
    authorizations := ["https://ca/authz/1", "https://ca/authz/1"] } inquiring).1
      = .ok [{ standing .pending with id := "https://ca/authz/1" },
        { standing .valid with id := "https://ca/authz/1" }] := by
  decide +kernel

end Session

end Acme
