import Acme.Http.Script

/-!
# What a scripted server brings

Answers and requests in any order, from a server without answers on. For every method and URL, the answers
that were received, followed by those that are left, are those that were pushed (`queue_after`): each call
moves an answer at most from the front of what is left to the end of what was received, or adds one at the
end of what is left, and other methods and URLs see nothing of it (`queue_run`).
-/

namespace Acme.Http.Script

/-- What is done to a server. -/
inductive Call
  | push (route : Method × String) (r : Response)
  | get (url : String)
  | head (url : String)
  | post (url contentType : String) (body : Bytes)
  deriving DecidableEq, Repr

namespace Call

/-- The request that is made, if one is. -/
def request? : Call → Option Request
  | push _ _ => none
  | get url => some (.get url)
  | head url => some (.head url)
  | post url contentType body => some (.post url contentType body)

/-- What it brings, if it is a request. -/
def answer? (c : Call) (s : Script) : Option (Except TransportError Response) :=
  c.request?.map fun q => (s.respond q).1

/-- The server after it. -/
def run (c : Call) (s : Script) : Script :=
  match c with
  | push route r => s.push route r
  | get url => (s.respond (.get url)).2
  | head url => (s.respond (.head url)).2
  | post url contentType body => (s.respond (.post url contentType body)).2

/-- The answer that it adds for a method and a URL. -/
def pushed? (route : Method × String) : Call → Option Response
  | push other r => if other = route then some r else none
  | _ => none

/-- The answer that it receives for a method and a URL. -/
def received? (route : Method × String) (c : Call) (s : Script) : Option Response := do
  let q ← c.request?
  if q.route = route then (← c.answer? s).toOption else none

theorem run_of_request? {c : Call} {q : Request} (h : c.request? = some q) (s : Script) :
    c.run s = (s.respond q).2 := by
  cases c <;> cases h <;> rfl

theorem requests_run (c : Call) (s : Script) :
    (c.run s).requests = s.requests ++ c.request?.toList := by
  cases hq : c.request? with
  | none =>
    cases c <;> cases hq
    exact (List.append_nil _).symm
  | some q =>
    rw [run_of_request? hq, requests_respond]
    rfl

/-- What is received and what is left afterwards is what was there before and what is pushed. -/
theorem queue_run (c : Call) (s : Script) (route : Method × String) :
    s.queue route ++ (c.pushed? route).toList
      = (c.received? route s).toList ++ (c.run s).queue route := by
  cases hq : c.request? with
  | none =>
    cases c <;> cases hq
    rename_i other r
    show _ = (s.push other r).queue route
    rw [queue_push, pushed?]
    split <;> rfl
  | some q =>
    have hpushed : c.pushed? route = none := by cases c <;> cases hq <;> rfl
    rw [hpushed, run_of_request? hq, queue_respond]
    simp only [received?, answer?, hq, Option.map_some, answer_respond]
    by_cases hroute : q.route = route
    · subst hroute
      cases s.queue q.route <;> simp [Except.toOption]
    · simp [hroute]

end Call

variable (route : Method × String)

/-- The server after some calls. -/
def after (s : Script) (calls : List Call) : Script := calls.foldl (fun s c => c.run s) s

/-- The answers that calls push for a method and a URL. -/
def pushed (calls : List Call) : List Response := calls.filterMap (·.pushed? route)

/-- The answers that calls receive for a method and a URL. -/
def received (s : Script) : List Call → List Response
  | [] => []
  | c :: rest => (c.received? route s).toList ++ received (c.run s) rest

variable (s : Script) (calls : List Call)

theorem pushed_cons (c : Call) :
    pushed route (c :: calls) = (c.pushed? route).toList ++ pushed route calls := by
  cases h : c.pushed? route <;> simp [pushed, h]

theorem requests_after : (s.after calls).requests = s.requests ++ calls.filterMap Call.request? := by
  induction calls generalizing s with
  | nil => simp [after]
  | cons c calls ih =>
    show ((c.run s).after calls).requests = _
    rw [ih, Call.requests_run, List.append_assoc]
    cases h : c.request? <;> simp [h]

theorem queue_after :
    s.queue route ++ pushed route calls = received route s calls ++ (s.after calls).queue route := by
  induction calls generalizing s with
  | nil => simp [pushed, received, after]
  | cons c calls ih =>
    calc s.queue route ++ pushed route (c :: calls)
        = (s.queue route ++ (c.pushed? route).toList) ++ pushed route calls := by
          rw [pushed_cons, List.append_assoc]
      _ = (c.received? route s).toList ++ ((c.run s).queue route ++ pushed route calls) := by
          rw [Call.queue_run, List.append_assoc]
      _ = received route s (c :: calls) ++ ((c.run s).after calls).queue route := by
          rw [ih, received, List.append_assoc]

/-- After any calls, every request so far is on record, whatever it brought. For every method and URL, the
answers that were pushed are those that were received, in the same order, and those that are left. So the
next request gets the answer that was pushed as many places behind the first as there were successful
requests for its method and URL, and it fails, naming them, just if no more were pushed than that. -/
theorem independent_queues (calls : List Call) :
    (empty.after calls).requests = calls.filterMap Call.request?
    ∧ (∀ route, pushed route calls = received route empty calls ++ (empty.after calls).queue route)
    ∧ ∀ q : Request,
      (∀ r, ((empty.after calls).respond q).1 = .ok r
        ↔ (pushed q.route calls)[(received q.route empty calls).length]? = some r)
      ∧ ∀ e, ((empty.after calls).respond q).1 = .error e
        ↔ e = .unscripted q.method q.url
          ∧ (pushed q.route calls).length ≤ (received q.route empty calls).length := by
  have hqueue (route : Method × String) :
      pushed route calls = received route empty calls ++ (empty.after calls).queue route :=
    queue_after route empty calls
  refine ⟨requests_after empty calls, hqueue, fun q => ?_⟩
  rw [answer_respond, hqueue q.route]
  cases (empty.after calls).queue q.route with
  | nil =>
    -- everything that was pushed was received
    refine ⟨fun r => ?_, fun e => ?_⟩
    · simp
    · simp [eq_comm]
  | cons first rest =>
    refine ⟨fun r => ?_, fun e => ?_⟩
    · simp
    · simp

/-- A push after a failed request serves the next one, and no request for something else. -/
example :
    let route : Method × String := (.get, "https://ca/a")
    let calls : List Call := [.get "https://ca/a", .push route (.ofCode 200), .head "https://ca/a",
      .push route (.ofCode 404), .get "https://ca/a"]
    received route empty calls = [.ofCode 200] ∧ (empty.after calls).queue route = [.ofCode 404] := by
  decide

end Acme.Http.Script
