import Acme.Proofs.Resource
import Acme.Proofs.Session.Answers
import Acme.Proofs.Session.Faults

/-!
# Two ways to poll

Polling a URL reads only the state of what is there, polling a resource reads all of it and keeps it.
If the server describes the resource whenever it answers at all, both do the same, request by request,
and end the same (`Session.PollsAlike`), and the resource is what was fetched last (`Session.Polled`).

One fetch is compared first (`Session.fetch_cases_alike`), then any number of them by induction.
-/

namespace Acme

open Stateful

variable {R : Type} [Resource R]

/-- What the way in which polling ended says about the state that was fetched last. -/
def PollOutcome.Tells (target : String) (cancelled : Nat → Bool) (status : String) : PollOutcome → Prop
  | matched _ => status = target
  | exhausted _ last => status = last ∧ last ≠ target
  | .cancelled n => status ≠ target ∧ cancelled n = true

namespace Session

open Operation

/-! ### What is said of a run -/

/-- Every answer that is left for fetching a URL and is a success gives a resource of a type, and its
state as a string. -/
def Describes (s : Session) (R : Type) [Resource R] (url : String) : Prop :=
  ∀ answer ∈ s.connection.server.queue (s.fetchMethod, url), answer.status = .ok →
    ∃ n, Json.Node.read answer.body = some n ∧ (∃ r : R, Resource.ofNode? n = some r)
      ∧ n.GivesText "status"

/-- Fetching a URL again and again brings some answers. -/
def Fetches (url : String) (s : Session) : List Http.Response → Session → Prop
  | [], t => t = s
  | answer :: answers, t => ∃ s', fetch url s = (.ok answer, s') ∧ Fetches url s' answers t

/-- A resource after answers that describe it: what the last one says, or the resource as it was. -/
def Latest (r : R) (answers : List Http.Response) (r' : R) : Prop :=
  match answers.getLast? with
  | some answer => Resource.ofBody? (Resource.id r) answer.body = some r'
  | none => r' = r

/-- Polling a resource, after some fetches before, has ended in a session. All fetches but one that
failed brought an answer, and the resource is what the last of these says. -/
def Polled (s : Session) (r : R) (target : String) (cancelled : Nat → Bool) (made : Nat)
    (outcome : Except SessionError PollOutcome) (r' : R) (s' : Session) : Prop :=
  ∃ answers t, s.Fetches (Resource.id r) answers t ∧ Latest r answers r' ∧
    match outcome with
    | .ok ended => s' = t ∧ answers ≠ [] ∧ ended.attempts = made + answers.length
        ∧ ended.Tells target cancelled (Resource.status r')
    | .error e => fetch (Resource.id r) t = (.error e, s')

/-- Polling the URL of a resource and polling the resource end in the same way, by the same error if by
one, and in the same session, so that the same requests were made; and the resource is what was fetched
last. -/
def PollsAlike (s : Session) (r : R) (target : String) (policy : Option PollPolicy)
    (cancelled : Nat → Bool) : Prop :=
  ∃ outcome r' s', pollUntil (Resource.id r) target policy cancelled s = (outcome, s')
    ∧ pollResource target policy cancelled r s = ((outcome, r'), s')
    ∧ s.Polled r target cancelled 0 outcome r' s'

namespace Polled

variable {s s' t : Session} {r q r' : R} {target : String} {cancelled : Nat → Bool} {made : Nat}
  {answer : Http.Response}

theorem failed {e : SessionError} (h : fetch (Resource.id r) s = (.error e, s')) :
    s.Polled r target cancelled made (.error e) r s' :=
  ⟨[], s, rfl, rfl, h⟩

theorem ended {ended : PollOutcome} (h : fetch (Resource.id r) s = (.ok answer, s'))
    (hbody : Resource.ofBody? (Resource.id r) answer.body = some q)
    (hattempts : ended.attempts = made + 1)
    (htells : ended.Tells target cancelled (Resource.status q)) :
    s.Polled r target cancelled made (.ok ended) q s' :=
  ⟨[answer], s', ⟨s', h, rfl⟩, hbody, rfl, by simp, hattempts, htells⟩

/-- One more fetch before. -/
theorem cons {outcome : Except SessionError PollOutcome}
    (h : fetch (Resource.id r) s = (.ok answer, s'))
    (hbody : Resource.ofBody? (Resource.id r) answer.body = some q)
    (hid : Resource.id q = Resource.id r)
    (hpolled : s'.Polled q target cancelled (made + 1) outcome r' t) :
    s.Polled r target cancelled made outcome r' t := by
  obtain ⟨answers, t', hfetches, hlatest, hended⟩ := hpolled
  rw [hid] at hfetches hended
  refine ⟨answer :: answers, t', ⟨s', h, hfetches⟩, ?_, ?_⟩
  · rw [Latest] at hlatest ⊢
    rw [List.getLast?_cons]
    -- the fetch that comes first is the latest only if it is the only one
    cases hlast : answers.getLast? with
    | none =>
      rw [hlast] at hlatest
      cases hlatest
      exact hbody
    | some last =>
      rw [hlast] at hlatest
      rw [← hid]
      exact hlatest
  · cases outcome with
    | error e => exact hended
    | ok ended =>
      obtain ⟨hsame, -, hattempts, htells⟩ := hended
      refine ⟨hsame, by simp, ?_, htells⟩
      rw [List.length_cons]
      omega

end Polled

/-! ### One fetch -/

/-- Fetches the state of what is at a URL. -/
def fetchStatus (url : String) : Operation String := do
  statusOf (← fetch url)

theorem pollUntil_apply (url target : String) (policy : Option PollPolicy) (cancelled : Nat → Bool)
    (s : Session) :
    pollUntil url target policy cancelled s
      = (policy.getD s.config.poll).run target (fetchStatus url) (fun n => return cancelled n) s := rfl

theorem exists_over_of_fetch {url : String} {s s' : Session} {answer : Http.Response}
    (h : fetch url s = (.ok answer, s')) : ∃ d, s' = s.over d := by
  have hover : s.over s.connection = s := rfl
  rcases fetch_cases s with hstuck | hsure
  · obtain ⟨e, he⟩ := hstuck url s.connection
    rw [hover, h] at he
    cases he
  · rcases hsure url s.connection with ⟨e, d, -, he⟩ | ⟨a, d, -, ha⟩
    · rw [hover, h] at he
      cases he
    · rw [hover, h] at ha
      cases ha
      exact ⟨d, rfl⟩

/-- After a fetch the answers that are left still describe the resource. -/
theorem Describes.fetched {url : String} {s s' : Session} {answer : Http.Response}
    (hs : s.Describes R url) (h : fetch url s = (.ok answer, s')) : s'.Describes R url := by
  obtain ⟨d, rfl⟩ := exists_over_of_fetch h
  exact fun a ha => hs a ((fetch_hears h).1.queue_subset _ ha)

theorem refetch_ok {r q : R} {s s' : Session} (h : update r s = (.ok q, s')) :
    refetch r s = ((.ok (Resource.status q), q), s') := by
  rw [refetch_apply, OperationOn.bind_apply, Operation.on, h]
  rfl

theorem refetch_error {r : R} {s s' : Session} {e : SessionError} (h : update r s = (.error e, s')) :
    refetch r s = ((.error e, r), s') := by
  rw [refetch_apply, OperationOn.bind_apply, Operation.on, h]

/-- The state alone is read as it is read with all else. -/
theorem statusOf_ok (lawful : Resource.Lawful R) {answer : Http.Response} {n : Json.Node} {q : R}
    (hn : Json.Node.read answer.body = some n) (hq : Resource.ofNode? n = some q)
    (hgives : n.GivesText "status") (s : Session) :
    statusOf answer s = (.ok (Resource.status q), s) := by
  obtain ⟨alone, halone, hstatus⟩ := lawful.status_alone hq hgives
  have hnode : answer.node? = some n := hn
  have hread : (do (← (← answer.node?).record? ["status"]).required "status" Json.Node.text?)
      = some (Resource.status q) := by
    rw [hnode, Option.bind_eq_bind, Option.bind_some, halone, Option.bind_eq_bind, Option.bind_some,
      hstatus]
  rw [statusOf, hread]
  rfl

/-- A described resource is fetched in both ways alike: either the fetch fails, and the resource is as
it was; or it brings an answer that says what the resource and its state are. -/
theorem fetch_cases_alike (lawful : Resource.Lawful R) {s : Session} {r : R}
    (hurl : Resource.id r ≠ "") (hs : s.Describes R (Resource.id r)) :
    (∃ e s', fetch (Resource.id r) s = (.error e, s') ∧ fetchStatus (Resource.id r) s = (.error e, s')
      ∧ refetch r s = ((.error e, r), s'))
    ∨ ∃ answer q s', fetch (Resource.id r) s = (.ok answer, s')
      ∧ Resource.ofBody? (Resource.id r) answer.body = some q ∧ Resource.id q = Resource.id r
      ∧ fetchStatus (Resource.id r) s = (.ok (Resource.status q), s')
      ∧ refetch r s = ((.ok (Resource.status q), q), s') := by
  have hupdate : update r s = (fetch (Resource.id r) >>= replaced r) s := by
    rw [update, if_neg (by simpa using hurl)]
  rcases hfetch : fetch (Resource.id r) s with ⟨result, s'⟩
  cases result with
  | error e =>
    exact .inl ⟨e, s', rfl, bind_error hfetch, refetch_error (hupdate.trans (bind_error hfetch))⟩
  | ok answer =>
    -- the server only has answers that describe the resource, so that both ways can read this one
    obtain ⟨-, hmem, hstatus⟩ := fetch_hears hfetch
    obtain ⟨n, hn, ⟨q, hq⟩, hgives⟩ := hs answer hmem hstatus
    have hbody :
        Resource.ofBody? (Resource.id r) answer.body = some (Resource.withId q (Resource.id r)) :=
      Resource.ofBody?_eq_some_iff.mpr ⟨n, q, hn, hq, rfl⟩
    have hreplaced : replaced r answer s' = (.ok (Resource.withId q (Resource.id r)), s') := by
      have hreplaced? :
          Resource.replaced? r answer.body = some (Resource.withId q (Resource.id r)) := hbody
      rw [replaced, hreplaced?]
      rfl
    refine .inr ⟨answer, _, s', rfl, hbody, lawful.id_withId q _, ?_,
      refetch_ok (hupdate.trans ((bind_ok hfetch).trans hreplaced))⟩
    rw [lawful.status_withId]
    exact (bind_ok hfetch).trans (statusOf_ok lawful hn hq hgives s')

/-! ### Any number of fetches -/

open PollPolicy in
/-- By induction on how often more may be fetched. What carries it is that the server still describes
the resource, which keeps its URL. -/
theorem attempt_alike (lawful : Resource.Lawful R) (target : String) (cancelled : Nat → Bool)
    (more made : Nat) {s : Session} {r : R} (hurl : Resource.id r ≠ "")
    (hs : s.Describes R (Resource.id r)) :
    ∃ outcome r' s',
      attempt target (fetchStatus (Resource.id r)) (fun n => return cancelled n) made more s
        = (outcome, s')
      ∧ attempt target refetch (fun n => return cancelled n) made more r s = ((outcome, r'), s')
      ∧ s.Polled r target cancelled made outcome r' s' := by
  induction more generalizing made s r with
  | zero =>
    rw [attempt, attempt, bind_apply, OperationOn.bind_apply]
    rcases fetch_cases_alike lawful hurl hs with ⟨e, s', hfetch, hstatus, hrefetch⟩
      | ⟨answer, q, s', hfetch, hbody, -, hstatus, hrefetch⟩
    · rw [hstatus, hrefetch]
      exact ⟨_, _, _, rfl, rfl, .failed hfetch⟩
    · rw [hstatus, hrefetch]
      refine ⟨_, _, _, rfl, rfl, ?_⟩
      by_cases hmatched : Resource.status q = target
      · rw [if_pos hmatched]
        exact .ended hfetch hbody rfl hmatched
      · rw [if_neg hmatched]
        exact .ended hfetch hbody rfl ⟨rfl, hmatched⟩
  | succ more ih =>
    rw [attempt, attempt, bind_apply, OperationOn.bind_apply]
    rcases fetch_cases_alike lawful hurl hs with ⟨e, s', hfetch, hstatus, hrefetch⟩
      | ⟨answer, q, s', hfetch, hbody, hid, hstatus, hrefetch⟩
    · rw [hstatus, hrefetch]
      exact ⟨_, _, _, rfl, rfl, .failed hfetch⟩
    · rw [hstatus, hrefetch]
      by_cases hmatched : Resource.status q = target
      · simp only [if_pos hmatched]
        exact ⟨_, _, _, rfl, rfl, .ended hfetch hbody rfl hmatched⟩
      · simp only [if_neg hmatched, pure_bind]
        by_cases hcancelled : cancelled (made + 1) = true
        · simp only [if_pos hcancelled]
          exact ⟨_, _, _, rfl, rfl, .ended hfetch hbody rfl ⟨hmatched, hcancelled⟩⟩
        · simp only [if_neg hcancelled]
          -- the resource has its URL still, so both ways go on to fetch the same
          obtain ⟨outcome, r', t, hurlRun, hresourceRun, hpolled⟩ :=
            ih (made + 1) (hid ▸ hurl) (hid ▸ hs.fetched hfetch)
          rw [hid] at hurlRun
          exact ⟨outcome, r', t, hurlRun, hresourceRun, hpolled.cons hfetch hbody hid⟩

theorem pollsAlike (lawful : Resource.Lawful R) (s : Session) (r : R) (target : String)
    (policy : Option PollPolicy) (cancelled : Nat → Bool) (hurl : Resource.id r ≠ "")
    (hs : s.Describes R (Resource.id r)) : s.PollsAlike r target policy cancelled := by
  obtain ⟨outcome, r', s', hurlRun, hresourceRun, hpolled⟩ := attempt_alike lawful target cancelled
    ((policy.getD s.config.poll).maxTries - 1) 0 hurl hs
  refine ⟨outcome, r', s', ?_, hresourceRun, hpolled⟩
  rw [pollUntil_apply]
  exact hurlRun

/-- Polling an order, an authorization or a challenge is polling its URL, if the server describes it
whenever it answers. -/
theorem pollResource_agrees (s : Session) (target : String) (policy : Option PollPolicy)
    (cancelled : Nat → Bool) :
    (∀ o : Order, o.id ≠ "" → s.Describes Order o.id → s.PollsAlike o target policy cancelled)
    ∧ (∀ a : Authorization, a.id ≠ "" → s.Describes Authorization a.id →
      s.PollsAlike a target policy cancelled)
    ∧ ∀ c : Challenge, c.url ≠ "" → s.Describes Challenge c.url →
      s.PollsAlike c target policy cancelled :=
  ⟨fun o => pollsAlike Order.lawful s o target policy cancelled,
    fun a => pollsAlike Authorization.lawful s a target policy cancelled,
    fun c => pollsAlike Challenge.lawful s c target policy cancelled⟩

/-- A challenge in a state. -/
def watched (status : ChallengeStatus) : Challenge where
  type := .dns
  url := "https://ca/chall/1"
  token := "t"
  status := status
  validated := none
  error := none

/-- A session that fetches without signatures, from a server that says twice where the challenge
stands. -/
def watching : Session where
  config := { Config.default with postAsGet := false }
  connection := .start ⟨[.pending, .valid].map fun status =>
    ((.get, "https://ca/chall/1"), (Http.Response.ofCode 200).withJson (watched status).toJson), []⟩
    Config.stagingUrl
  table := .empty

theorem watching_describes : watching.Describes Challenge "https://ca/chall/1" := by
  have hsays (status : ChallengeStatus) : ∃ n,
      Json.Node.read (Bytes.ofText (watched status).toJson.text) = some n
        ∧ (∃ c : Challenge, Resource.ofNode? n = some c) ∧ n.GivesText "status" := by
    have hstable : Json.Stable Challenge.ofNode? Challenge.toJson (watched status) :=
      Challenge.stable rfl nofun nofun
    refine ⟨_, Json.Node.read_text _ hstable.plain, ⟨_, hstable.read_node⟩, _, Json.written "status",
      Json.written status.text, rfl, ?_, Json.writtenText?_written "status"⟩
    simp [watched, Json.member?, Json.memberNodes, Json.node]
  intro answer hanswer _
  have hqueue : watching.connection.server.queue (watching.fetchMethod, "https://ca/chall/1")
      = [.pending, .valid].map fun status =>
        (Http.Response.ofCode 200).withJson (watched status).toJson := rfl
  rw [hqueue] at hanswer
  obtain ⟨status, -, rfl⟩ := List.mem_map.mp hanswer
  exact hsays status

/-- The challenge passes with the second fetch. -/
theorem watched_passes :
    ∃ s', pollUntil "https://ca/chall/1" "valid" none (fun _ => false) watching
        = (.ok (.matched 2), s')
      ∧ pollResource "valid" none (fun _ => false) (watched .pending) watching
        = ((.ok (.matched 2), watched .valid), s') := by
  obtain ⟨-, -, hagrees⟩ := pollResource_agrees watching "valid" none fun _ => false
  obtain ⟨outcome, r', s', hurl, hresource, -⟩ :=
    hagrees (watched .pending) (by decide) watching_describes
  have hrun : (pollResource "valid" none (fun _ => false) (watched .pending) watching).1
      = (.ok (.matched 2), watched .valid) := by decide +kernel
  rw [hresource] at hrun
  cases hrun
  exact ⟨s', hurl, hresource⟩

end Session

end Acme
