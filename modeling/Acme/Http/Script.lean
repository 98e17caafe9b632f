import Acme.Http.Response

/-!
# Scripted servers

A server whose answers are laid down in advance. For every method and URL there is a queue of
answers; a request takes the first answer of its queue and fails if there is none. Every request is
recorded, also one that fails.

The queues are kept in one list in the order in which answers were pushed; `queue` is the part of
it that belongs to a method and a URL. `queue_respond` and `queue_push` say what requests and pushes
do to all queues.
-/

namespace Acme.Http

/-- A method, which is no more than its name. -/
structure Method where
  text : String
  deriving DecidableEq, Repr

namespace Method

/-! The methods that the protocol uses. -/

def get : Method := ⟨"GET"⟩

def head : Method := ⟨"HEAD"⟩

def post : Method := ⟨"POST"⟩

@[simp] theorem get_ne_post : get ≠ post := by decide

@[simp] theorem head_ne_post : head ≠ post := by decide

end Method

structure Request where
  method : Method
  url : String
  contentType : Option String
  body : Bytes
  deriving DecidableEq, Repr

namespace Request

def get (url : String) : Request := ⟨.get, url, none, []⟩

def head (url : String) : Request := ⟨.head, url, none, []⟩

/-- A request that sends octets of some type. -/
def post (url contentType : String) (body : Bytes) : Request := ⟨.post, url, some contentType, body⟩

/-- Where the request goes. -/
def route (r : Request) : Method × String := (r.method, r.url)

end Request

/-- Why a request brings no answer. -/
inductive TransportError
  /-- No answer is left for the method and the URL. -/
  | unscripted (method : Method) (url : String)
  deriving DecidableEq, Repr

def TransportError.message : TransportError → String
  | .unscripted method url => "No scripted response for " ++ method.text ++ " " ++ url

/-- A scripted server: the answers that are left, in the order in which they were pushed, and the
requests so far. -/
structure Script where
  pending : List ((Method × String) × Response)
  requests : List Request
  deriving DecidableEq, Repr

namespace Script

/-- A server without answers. -/
def empty : Script := ⟨[], []⟩

/-- Adds an answer at the end of the queue of a method and a URL. -/
def push (s : Script) (route : Method × String) (r : Response) : Script :=
  { s with pending := s.pending ++ [(route, r)] }

/-- The answers that are left for a method and a URL. -/
def queue (s : Script) (route : Method × String) : List Response :=
  (s.pending.filter (·.1 == route)).map (·.2)

/-- Takes the first answer for a method and a URL out of a list. -/
def take? (route : Method × String) :
    List ((Method × String) × Response) → Option (Response × List ((Method × String) × Response))
  | [] => none
  | entry :: rest =>
    if entry.1 = route then some (entry.2, rest)
    else (take? route rest).map fun (r, left) => (r, entry :: left)

/-- Answers a request and records it. -/
def respond (s : Script) (request : Request) : Except TransportError Response × Script :=
  let requests := s.requests ++ [request]
  match take? request.route s.pending with
  | some (r, pending) => (.ok r, { pending, requests })
  | none => (.error (.unscripted request.method request.url), { s with requests })

theorem take?_eq_none_iff {route : Method × String} {pending : List ((Method × String) × Response)} :
    take? route pending = none ↔ ∀ entry ∈ pending, entry.1 ≠ route := by
  induction pending with
  | nil => simp [take?]
  | cons entry rest ih =>
    rw [take?]
    split
    · rename_i hroute
      simp [hroute]
    · rename_i hroute
      simp [hroute, ih]

/-- What is taken out is the first answer for its method and URL. -/
theorem exists_split_of_take? {route : Method × String}
    {pending left : List ((Method × String) × Response)} {r : Response}
    (h : take? route pending = some (r, left)) :
    ∃ before after, pending = before ++ (route, r) :: after ∧ left = before ++ after
      ∧ ∀ entry ∈ before, entry.1 ≠ route := by
  induction pending generalizing left with
  | nil => cases h
  | cons entry rest ih =>
    rw [take?] at h
    split at h
    · rename_i hroute
      cases h
      subst hroute
      exact ⟨[], rest, rfl, rfl, fun _ hentry => nomatch hentry⟩
    · rename_i hroute
      obtain ⟨⟨r', left'⟩, htaken, hleft⟩ := Option.map_eq_some_iff.mp h
      cases hleft
      obtain ⟨before, after, rfl, rfl, hbefore⟩ := ih htaken
      exact ⟨entry :: before, after, rfl, rfl, List.forall_mem_cons.mpr ⟨hroute, hbefore⟩⟩

@[simp] theorem queue_push (s : Script) (route other : Method × String) (r : Response) :
    (s.push route r).queue other = s.queue other ++ if route = other then [r] else [] := by
  by_cases h : route = other <;> simp [push, queue, h]

@[simp] theorem requests_push (s : Script) (route : Method × String) (r : Response) :
    (s.push route r).requests = s.requests := rfl

theorem queue_eq_nil {s : Script} {route : Method × String}
    (h : ∀ entry ∈ s.pending, entry.1 ≠ route) : s.queue route = [] := by
  simpa [queue, List.filter_eq_nil_iff] using h

/-- What is taken out stood at the front of its own queue and in no other. -/
theorem queue_of_take? {s : Script} {route : Method × String} {r : Response}
    {left : List ((Method × String) × Response)} (h : take? route s.pending = some (r, left))
    (requests : List Request) (other : Method × String) :
    s.queue other = (if route = other then [r] else []) ++ queue ⟨left, requests⟩ other := by
  obtain ⟨before, after, hpending, rfl, hbefore⟩ := exists_split_of_take? h
  split
  · rename_i hroute
    subst hroute
    have hnone : before.filter (·.1 == route) = [] := by
      simpa [List.filter_eq_nil_iff] using hbefore
    simp [queue, hpending, hnone]
  · rename_i hroute
    simp [queue, hpending, hroute]

/-- The first answer of its queue is what a request gets. -/
theorem answer_respond (s : Script) (q : Request) :
    (s.respond q).1 = match s.queue q.route with
      | r :: _ => .ok r
      | [] => .error (.unscripted q.method q.url) := by
  rw [respond]
  cases h : take? q.route s.pending with
  | none => rw [queue_eq_nil (take?_eq_none_iff.mp h)]
  | some taken =>
    obtain ⟨r, left⟩ := taken
    rw [queue_of_take? h s.requests, if_pos rfl]
    rfl

/-- A request takes one answer out of its queue, if there is one, and leaves all other queues. -/
theorem queue_respond (s : Script) (q : Request) (route : Method × String) :
    (s.respond q).2.queue route
      = if q.route = route then (s.queue route).tail else s.queue route := by
  rw [respond]
  cases h : take? q.route s.pending with
  | none =>
    show s.queue route = _
    split
    · rename_i hroute
      subst hroute
      rw [queue_eq_nil (take?_eq_none_iff.mp h)]
      rfl
    · rfl
  | some taken =>
    obtain ⟨r, left⟩ := taken
    show queue ⟨left, s.requests ++ [q]⟩ route = _
    rw [queue_of_take? h (s.requests ++ [q])]
    split
    · rfl
    · rfl

@[simp] theorem requests_respond (s : Script) (request : Request) :
    (s.respond request).2.requests = s.requests ++ [request] := by
  simp only [respond]
  split <;> rfl

end Script

end Acme.Http
