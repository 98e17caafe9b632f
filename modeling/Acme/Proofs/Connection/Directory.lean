import Acme.Proofs.Connection.Steps
import Acme.Proofs.Json.Values

/-!
# The kept directory

What a client is told that asks for the directory again and again, in terms of what the requests so far
brought back. `Lists` says by the grammar of JSON texts which answers are directories, and `Refused` how
every other one is reported.

A `Visit` is an inquiry together with the server that it meets, so a list of visits is any sequence of
inquiries with any sequence of answers. What one visit can do is said once, by `Visit.run_cases`. The
invariant is that a connection keeps the directory that was listed last, and none as long as none has been
(`Knows`); from it follows for all visits that the next one is `Lawful` (`directory_lawful`).
-/

namespace Acme.Connection

open Json (Node)
open Stateful

/-! ### Answers as directories -/

/-- What a request brings back. -/
abbrev Reply : Type := Except Http.TransportError Http.Response

/-- A directory with these members was brought back: the answer reports success, and its body is a JSON
object whose members can all be kept. -/
def Lists (reply : Reply) (members : List (Bytes × Node)) : Prop :=
  ∃ r, reply = .ok r ∧ 200 ≤ r.status.code ∧ r.status.code < 300
    ∧ Node.Writes (.object members) r.body ∧ Node.Keepable Node.nestingLimit (.object members)

/-- No directory was brought back, and the error says why. -/
inductive Refused : Reply → DirectoryError → Prop
  | transport {e : Http.TransportError} : Refused (.error e) (.transport e)
  | status {r : Http.Response} (h : ¬(200 ≤ r.status.code ∧ r.status.code < 300)) :
    Refused (.ok r) (.unexpectedStatus r.status)
  | json {r : Http.Response} (hstatus : 200 ≤ r.status.code ∧ r.status.code < 300)
    (h : ∀ n, Node.Writes n r.body → ¬Node.Keepable Node.nestingLimit n) : Refused (.ok r) .json
  | notAnObject {r : Http.Response} {n : Node} (hstatus : 200 ≤ r.status.code ∧ r.status.code < 300)
    (hn : Node.Writes n r.body) (hkeep : Node.Keepable Node.nestingLimit n)
    (h : ∀ members, n ≠ .object members) : Refused (.ok r) .notAnObject

/-- What is kept of what a request brought back. -/
def listed (reply : Reply) : Except DirectoryError (List (String × Json)) :=
  (reply.mapError .transport).bind directoryOf

/-- The values of the members of a directory. -/
def ValuesOf (members : List (Bytes × Node)) (values : List (String × Json)) : Prop :=
  Node.members? (Node.nestingLimit - 1) [] members = some values

theorem isSuccess_iff {s : Http.Status} : s.isSuccess ↔ 200 ≤ s.code ∧ s.code < 300 := by
  simp [Http.Status.isSuccess]

theorem lists_of_listed {reply : Reply} {values : List (String × Json)} (h : listed reply = .ok values) :
    ∃ members, Lists reply members ∧ ValuesOf members values := by
  cases reply with
  | error e => cases h
  | ok r =>
    change directoryOf r = .ok values at h
    rw [directoryOf] at h
    split at h
    · cases h
    · rename_i hstatus
      split at h
      · rename_i hread
        cases h
        obtain ⟨hlow, hhigh⟩ := isSuccess_iff.mp (by simpa using hstatus)
        obtain ⟨n, hn, hvalue⟩ := Json.read?_eq_some_iff.mp hread
        obtain ⟨members, rfl, -, hmembers⟩ := Node.value?_eq_object_iff.mp hvalue
        exact ⟨members, ⟨r, rfl, hlow, hhigh, hn, Node.exists_value?_iff.mp ⟨_, hvalue⟩⟩, hmembers⟩
      · cases h
      · cases h

theorem refused_of_listed {reply : Reply} {e : DirectoryError} (h : listed reply = .error e) :
    Refused reply e := by
  cases reply with
  | error cause =>
    cases h
    exact .transport
  | ok r =>
    change directoryOf r = .error e at h
    rw [directoryOf] at h
    split at h
    · rename_i hstatus
      cases h
      exact .status fun hcode => by simp [isSuccess_iff.mpr hcode] at hstatus
    · rename_i hstatus
      have hcode : 200 ≤ r.status.code ∧ r.status.code < 300 := isSuccess_iff.mp (by simpa using hstatus)
      split at h
      · cases h
      · rename_i j hobject hread
        cases h
        obtain ⟨n, hn, hvalue⟩ := Json.read?_eq_some_iff.mp hread
        -- a value that can be held, but no object
        refine .notAnObject hcode hn (Node.exists_value?_iff.mp ⟨j, hvalue⟩) ?_
        rintro members rfl
        obtain ⟨values, rfl, -⟩ := Node.object_of_value? hvalue
        exact hobject values rfl
      · rename_i hread
        cases h
        exact .json hcode (Json.read?_eq_none_iff.mp hread)

theorem listed_of_lists {reply : Reply} {members : List (Bytes × Node)} (h : Lists reply members) :
    ∃ values, listed reply = .ok values ∧ ValuesOf members values := by
  obtain ⟨r, rfl, hlow, hhigh, hwrites, hkeep⟩ := h
  obtain ⟨j, hj⟩ := Node.exists_value?_iff.mpr hkeep
  obtain ⟨values, rfl, -, hvalues⟩ := Node.object_of_value? hj
  refine ⟨values, ?_, hvalues⟩
  change directoryOf r = .ok values
  rw [directoryOf, isSuccess_iff.mpr ⟨hlow, hhigh⟩, Json.read?_eq_some_iff.mpr ⟨_, hwrites, hj⟩]
  rfl

theorem listed_of_refused {reply : Reply} {e : DirectoryError} (h : Refused reply e) :
    listed reply = .error e := by
  cases h with
  | transport => rfl
  | status hstatus =>
    rename_i r
    change directoryOf r = _
    rw [directoryOf, Bool.eq_false_iff.mpr fun h => hstatus (isSuccess_iff.mp h)]
    rfl
  | json hstatus hnone =>
    rename_i r
    change directoryOf r = _
    rw [directoryOf, isSuccess_iff.mpr hstatus, Json.read?_eq_none_iff.mpr hnone]
    rfl
  | notAnObject hstatus hwrites hkeep hobject =>
    rename_i r n
    obtain ⟨j, hj⟩ := Node.exists_value?_iff.mpr hkeep
    change directoryOf r = _
    rw [directoryOf, isSuccess_iff.mpr hstatus, Json.read?_eq_some_iff.mpr ⟨n, hwrites, hj⟩]
    cases j with
    | object values =>
      obtain ⟨members, rfl, -⟩ := Node.value?_eq_object_iff.mp hj
      exact absurd rfl (hobject members)
    | null | bool _ | number _ | string _ | array _ => rfl

/-- A body lists one directory at most. -/
theorem Lists.unique {reply : Reply} {members others : List (Bytes × Node)} (h : Lists reply members)
    (h' : Lists reply others) : members = others := by
  obtain ⟨r, rfl, -, -, hwrites, -⟩ := h
  obtain ⟨r', hr, -, -, hwrites', -⟩ := h'
  cases hr
  have hread := Node.read_eq_some_iff.mpr hwrites
  rw [Node.read_eq_some_iff.mpr hwrites'] at hread
  cases hread
  rfl

theorem Refused.not_lists {reply : Reply} {e : DirectoryError} (h : Refused reply e)
    (members : List (Bytes × Node)) : ¬Lists reply members := by
  intro hlists
  obtain ⟨values, hvalues, -⟩ := listed_of_lists hlists
  rw [listed_of_refused h] at hvalues
  cases hvalues

theorem Refused.unique {reply : Reply} {e f : DirectoryError} (h : Refused reply e)
    (h' : Refused reply f) : e = f := by
  have hlisted := listed_of_refused h
  rw [listed_of_refused h'] at hlisted
  cases hlisted
  rfl

/-! ### What was listed last -/

/-- No directory has been brought back. -/
def Unlisted (replies : List Reply) : Prop := ∀ r ∈ replies, ∀ members, ¬Lists r members

/-- The directory that was brought back last has these members; what came back since then was none. -/
def Latest (replies : List Reply) (members : List (Bytes × Node)) : Prop :=
  ∃ before reply since, replies = before ++ reply :: since ∧ Lists reply members ∧ Unlisted since

theorem Unlisted.concat {replies : List Reply} {reply : Reply} (h : Unlisted replies)
    (hreply : ∀ members, ¬Lists reply members) : Unlisted (replies ++ [reply]) := by
  intro r hr
  rcases List.mem_append.mp hr with hr | hr
  · exact h r hr
  · rw [List.mem_singleton.mp hr]
    exact hreply

theorem Lists.latest {reply : Reply} {members : List (Bytes × Node)} (h : Lists reply members)
    (replies : List Reply) : Latest (replies ++ [reply]) members :=
  ⟨replies, reply, [], rfl, h, List.forall_mem_nil _⟩

theorem Latest.concat {replies : List Reply} {reply : Reply} {members : List (Bytes × Node)}
    (h : Latest replies members) (hreply : ∀ others, ¬Lists reply others) :
    Latest (replies ++ [reply]) members := by
  obtain ⟨before, last, since, rfl, hlast, hsince⟩ := h
  exact ⟨before, last, since ++ [reply], by simp, hlast, hsince.concat hreply⟩

theorem Latest.not_unlisted {replies : List Reply} {members : List (Bytes × Node)}
    (h : Latest replies members) : ¬Unlisted replies := by
  obtain ⟨before, reply, since, rfl, hreply, -⟩ := h
  exact fun hnone => hnone reply (by simp) members hreply

theorem Lists.unique_of_unlisted {reply last : Reply} {since between rest : List Reply}
    {members others : List (Bytes × Node)} (hreply : Lists reply members) (hlast : Lists last others)
    (hsince : Unlisted since) (h : reply :: since = between ++ last :: rest) : members = others := by
  cases between with
  | nil =>
    cases h
    exact hreply.unique hlast
  | cons first between =>
    cases h
    exact absurd hlast (hsince last (by simp) others)

/-- What was listed last is one directory. -/
theorem Latest.unique {replies : List Reply} {members others : List (Bytes × Node)}
    (h : Latest replies members) (h' : Latest replies others) : members = others := by
  obtain ⟨before, reply, since, rfl, hreply, hsince⟩ := h
  obtain ⟨before', reply', since', heq, hreply', hsince'⟩ := h'
  -- the later of the two would stand among what came back after the other
  rcases List.append_eq_append_iff.mp heq with ⟨between, -, htail⟩ | ⟨between, -, htail⟩
  · exact hreply.unique_of_unlisted hreply' hsince htail
  · exact (hreply'.unique_of_unlisted hreply hsince' htail).symm

/-! ### Inquiries -/

/-- What can be asked of the directory. -/
inductive Inquiry
  | resolve (name : String)
  | termsOfService
  | refresh
  deriving DecidableEq

namespace Inquiry

def perform : Inquiry → Exchange DirectoryError (Option String)
  | resolve name => Connection.resolve name
  | termsOfService => Connection.termsOfService
  | refresh => do
    refreshDirectory
    return none

/-- What a directory with these members says. -/
def answer (members : List (Bytes × Node)) : Inquiry → Option String
  | resolve name => (Node.memberText? members name).filter (· ≠ "")
  | termsOfService =>
    match Node.lastMember? members "meta" with
    | some (.object inner) => Node.memberText? inner "termsOfService"
    | _ => none
  | refresh => none

/-- What the values of a directory say. -/
def answerOf (values : List (String × Json)) : Inquiry → Option String
  | resolve name => (memberText? values name).filter (!·.isEmpty)
  | termsOfService =>
    match values.lookup "meta" with
    | some (.object inner) => memberText? inner "termsOfService"
    | _ => none
  | refresh => none

theorem answerOf_eq {members : List (Bytes × Node)} {values : List (String × Json)}
    (h : ValuesOf members values) (q : Inquiry) : q.answerOf values = q.answer members := by
  cases q with
  | refresh => rfl
  | resolve name =>
    rw [answerOf, answer, memberText?, Node.lookup_members?_asString? h]
    congr 1
    funext s
    rw [Bool.eq_iff_iff]
    simp
  | termsOfService =>
    rw [answerOf, answer, Node.lookup_members? h]
    cases hlast : Node.lastMember? members "meta" with
    | none => rfl
    | some n =>
      obtain ⟨w, hw⟩ := Node.mem_of_lastMember? hlast
      obtain ⟨j, hj⟩ := ((Node.keepable_of_members? members h).2 _ hw).exists_value?
      simp only [hj]
      -- the member is an object exactly if its value is, and only then there is something in it
      cases j with
      | object found =>
        obtain ⟨inner, rfl, -, hinner⟩ := Node.value?_eq_object_iff.mp hj
        exact Node.lookup_members?_asString? hinner _
      | null | bool _ | number _ | string _ | array _ =>
        cases n with
        | object inner =>
          obtain ⟨found, hfound, -⟩ := Node.object_of_value? hj
          cases hfound
        | null | bool _ | number _ | string _ | array _ => rfl

end Inquiry

/-! ### Visits -/

/-- An inquiry, and the server that it meets. Between inquiries anything may become of the server. -/
structure Visit where
  server : Http.Script
  inquiry : Inquiry

namespace Visit

variable (v : Visit) (c : Connection)

/-- What the visit is answered, and the connection after it. -/
def run : Except DirectoryError (Option String) × Connection :=
  v.inquiry.perform { c with server := v.server }

/-- The requests that the visit sends. -/
def sent : List Http.Request := (v.run c).2.server.requests.drop v.server.requests.length

/-- What the requests bring back. -/
def replies : List Reply := (v.sent c).map fun q => (v.server.respond q).1

end Visit

/-- The connection after visits. -/
def visited (c : Connection) (visits : List Visit) : Connection :=
  visits.foldl (fun c v => (v.run c).2) c

/-- What visits are answered. -/
def answers (c : Connection) : List Visit → List (Except DirectoryError (Option String))
  | [] => []
  | v :: visits => (v.run c).1 :: answers (v.run c).2 visits

/-- The requests that each visit sends. -/
def sent (c : Connection) : List Visit → List (List Http.Request)
  | [] => []
  | v :: visits => v.sent c :: sent (v.run c).2 visits

/-- What the requests of visits bring back. -/
def replies (c : Connection) : List Visit → List Reply
  | [] => []
  | v :: visits => v.replies c ++ replies (v.run c).2 visits

/-! ### One visit -/

theorem fetchDirectory_apply (c : Connection) :
    fetchDirectory c
      = match listed (c.server.respond (.get c.directoryUrl)).1 with
        | .ok values =>
          (.ok values, { c with
            server := (c.server.respond (.get c.directoryUrl)).2, directory := some values })
        | .error e => (.error e, { c with server := (c.server.respond (.get c.directoryUrl)).2 }) := by
  rw [fetchDirectory, bind_ok (get_apply c), bind_apply, adapt_apply, send_apply]
  cases (c.server.respond (.get c.directoryUrl)).1 with
  | error e => rfl
  | ok r =>
    simp only [mapError_ok]
    rw [bind_apply, mk_pure_apply]
    change _ = match directoryOf r with
      | .ok values => _
      | .error e => _
    cases directoryOf r <;> rfl

namespace Inquiry

/-- Where an inquiry takes the directory from. -/
def source : Inquiry → Exchange DirectoryError (List (String × Json))
  | resolve _ | termsOfService => directoryMembers
  | refresh => fetchDirectory

theorem source_fetch {c : Connection} {q : Inquiry} (h : q = .refresh ∨ c.directory = none) :
    q.source c = fetchDirectory c := by
  cases q with
  | refresh => rfl
  | resolve _ | termsOfService =>
    have hnone : c.directory = none := by simpa using h
    rw [source, directoryMembers, bind_ok (get_apply c), hnone]

theorem source_kept {c : Connection} {q : Inquiry} {values : List (String × Json)}
    (hq : q ≠ .refresh) (h : c.directory = some values) : q.source c = (.ok values, c) := by
  cases q with
  | refresh => exact absurd rfl hq
  | resolve _ | termsOfService =>
    rw [source, directoryMembers, bind_ok (get_apply c), h]
    rfl

theorem perform_apply (c : Connection) (q : Inquiry) :
    q.perform c
      = match q.source c with
        | (.ok values, d) => (.ok (q.answerOf values), d)
        | (.error e, d) => (.error e, d) := by
  cases q with
  | resolve name =>
    rw [perform, Connection.resolve, bind_apply, source]
    obtain ⟨r, d⟩ := directoryMembers c
    cases r <;> rfl
  | termsOfService =>
    rw [perform, Connection.termsOfService, bind_apply, source]
    obtain ⟨r, d⟩ := directoryMembers c
    cases r with
    | error e => rfl
    | ok values =>
      simp only [answerOf]
      cases values.lookup "meta" with
      | none => rfl
      | some j => cases j <;> rfl
  | refresh =>
    rw [perform, refreshDirectory, bind_apply, bind_apply, source]
    obtain ⟨r, d⟩ := fetchDirectory c
    cases r <;> rfl

end Inquiry

namespace Visit

/-- What the visit brings back if it fetches the directory. -/
def reply (v : Visit) (c : Connection) : Reply := (v.server.respond (.get c.directoryUrl)).1

theorem run_fetch {v : Visit} {c : Connection} (h : v.inquiry = .refresh ∨ c.directory = none) :
    v.run c
      = match listed (v.reply c) with
        | .ok values =>
          (.ok (v.inquiry.answerOf values), { c with
            server := (v.server.respond (.get c.directoryUrl)).2, directory := some values })
        | .error e => (.error e, { c with server := (v.server.respond (.get c.directoryUrl)).2 }) := by
  have hfetch : v.inquiry = .refresh ∨ { c with server := v.server }.directory = none := h
  rw [run, Inquiry.perform_apply, Inquiry.source_fetch hfetch, fetchDirectory_apply, reply]
  cases listed (v.server.respond (.get c.directoryUrl)).1 <;> rfl

theorem run_kept {v : Visit} {c : Connection} {values : List (String × Json)}
    (hv : v.inquiry ≠ .refresh) (h : c.directory = some values) :
    v.run c = (.ok (v.inquiry.answerOf values), { c with server := v.server }) := by
  have hkept : { c with server := v.server }.directory = some values := h
  rw [run, Inquiry.perform_apply, Inquiry.source_kept hv hkept]

theorem requests_fetch {v : Visit} {c : Connection} (h : v.inquiry = .refresh ∨ c.directory = none) :
    (v.run c).2.server.requests = v.server.requests ++ [.get c.directoryUrl] := by
  rw [run_fetch h]
  cases listed (v.reply c) <;> exact Http.Script.requests_respond ..

/-- A visit is answered from the directory that is kept, or it sends one request. What that brings back
is kept if it is a directory, and otherwise nothing changes but the server. -/
theorem run_cases (v : Visit) (c : Connection) :
    (v.inquiry ≠ .refresh ∧ v.sent c = []
      ∧ ∃ values, c.directory = some values
        ∧ v.run c = (.ok (v.inquiry.answerOf values), { c with server := v.server }))
    ∨ ((v.inquiry = .refresh ∨ c.directory = none) ∧ v.sent c = [.get c.directoryUrl]
      ∧ ((∃ members values server, Lists (v.reply c) members ∧ ValuesOf members values
          ∧ v.run c = (.ok (v.inquiry.answerOf values), { c with server, directory := some values }))
        ∨ ∃ e server, Refused (v.reply c) e ∧ v.run c = (.error e, { c with server }))) := by
  by_cases h : v.inquiry = .refresh ∨ c.directory = none
  · refine .inr ⟨h, ?_, ?_⟩
    · rw [sent, requests_fetch h, List.drop_left]
    · rw [run_fetch h]
      cases hlisted : listed (v.reply c) with
      | ok values =>
        obtain ⟨members, hmembers, hvalues⟩ := lists_of_listed hlisted
        exact .inl ⟨members, values, _, hmembers, hvalues, rfl⟩
      | error e => exact .inr ⟨e, _, refused_of_listed hlisted, rfl⟩
  · -- there is a directory, and it is not to be fetched again
    obtain ⟨hv, hkept⟩ := not_or.mp h
    obtain ⟨values, hvalues⟩ := Option.ne_none_iff_exists'.mp hkept
    refine .inl ⟨hv, ?_, values, hvalues, run_kept hv hvalues⟩
    rw [sent, run_kept hv hvalues, List.drop_length]

theorem replies_of_sent {v : Visit} {c : Connection} (h : v.sent c = [.get c.directoryUrl]) :
    v.replies c = [v.reply c] := by
  rw [replies, h]
  rfl

/-- The server records what is sent, and forgets nothing. -/
theorem requests_run (v : Visit) (c : Connection) :
    (v.run c).2.server.requests = v.server.requests ++ v.sent c := by
  by_cases h : v.inquiry = .refresh ∨ c.directory = none
  · rw [sent, requests_fetch h, List.drop_left]
  · obtain ⟨hv, hkept⟩ := not_or.mp h
    obtain ⟨values, hvalues⟩ := Option.ne_none_iff_exists'.mp hkept
    rw [sent, run_kept hv hvalues, List.drop_length, List.append_nil]

end Visit

/-! ### All visits -/

/-- What a connection keeps is the directory that was listed last, and nothing if there was none. -/
def Knows (c : Connection) (past : List Reply) : Prop :=
  match c.directory with
  | none => Unlisted past
  | some values => ∃ members, Latest past members ∧ ValuesOf members values

namespace Knows

variable {c : Connection} {past : List Reply}

theorem start (server : Http.Script) (url : String) : Knows (.start server url) [] :=
  List.forall_mem_nil _

theorem directory_eq_none_iff (h : Knows c past) : c.directory = none ↔ Unlisted past := by
  rw [Knows] at h
  cases hc : c.directory with
  | none => simpa [hc] using h
  | some values =>
    obtain ⟨members, hlatest, -⟩ : ∃ members, Latest past members ∧ ValuesOf members values := by
      simpa [hc] using h
    simp [hlatest.not_unlisted]

theorem latest (h : Knows c past) {values : List (String × Json)} (hc : c.directory = some values) :
    ∃ members, Latest past members ∧ ValuesOf members values := by
  rw [Knows, hc] at h
  exact h

/-- What came back and was no directory makes no difference. -/
theorem refused (h : Knows c past) {reply : Reply} {e : DirectoryError} (hreply : Refused reply e) :
    Knows c (past ++ [reply]) := by
  rw [Knows] at h ⊢
  split at h
  · exact h.concat hreply.not_lists
  · obtain ⟨members, hlatest, hvalues⟩ := h
    exact ⟨members, hlatest.concat hreply.not_lists, hvalues⟩

theorem run (h : Knows c past) (v : Visit) : Knows (v.run c).2 (past ++ v.replies c) := by
  rcases v.run_cases c with ⟨-, hsent, values, -, hrun⟩ | ⟨-, hsent, hrun⟩
  · rw [Visit.replies, hsent, hrun, List.map_nil, List.append_nil]
    exact h
  · rw [Visit.replies_of_sent hsent]
    rcases hrun with ⟨members, values, server, hmembers, hvalues, hrun⟩ | ⟨e, server, he, hrun⟩
    · rw [hrun]
      exact ⟨members, hmembers.latest past, hvalues⟩
    · rw [hrun]
      exact h.refused he

theorem visited (h : Knows c past) (visits : List Visit) :
    Knows (c.visited visits) (past ++ c.replies visits) := by
  induction visits generalizing c past with
  | nil =>
    rw [Connection.replies, List.append_nil]
    exact h
  | cons v visits ih =>
    rw [Connection.replies, ← List.append_assoc]
    exact ih (h.run v)

end Knows

@[simp] theorem Visit.directoryUrl_run (v : Visit) (c : Connection) :
    (v.run c).2.directoryUrl = c.directoryUrl := by
  rcases v.run_cases c with ⟨-, -, values, -, hrun⟩ | ⟨-, -, hrun⟩
  · rw [hrun]
  · rcases hrun with ⟨members, values, server, -, -, hrun⟩ | ⟨e, server, -, hrun⟩ <;> rw [hrun]

theorem directoryUrl_visited (c : Connection) (visits : List Visit) :
    (c.visited visits).directoryUrl = c.directoryUrl := by
  induction visits generalizing c with
  | nil => rfl
  | cons v visits ih => exact (ih _).trans (v.directoryUrl_run c)

/-- What a visit does to a connection, in terms of what fetching the directory brought back before. -/
structure Lawful (url : String) (past : List Reply) (c : Connection) (v : Visit) : Prop where
  /-- The server records what is sent, and forgets nothing. -/
  recorded : (v.run c).2.server.requests = v.server.requests ++ v.sent c
  /-- A refresh fetches the directory once, and so does an inquiry before which no fetch has succeeded. -/
  fetched : v.inquiry = .refresh ∨ Unlisted past → v.sent c = [.get url]
  /-- Every other inquiry sends nothing. -/
  silent : v.inquiry ≠ .refresh → ¬Unlisted past → v.sent c = []
  /-- An inquiry is answered unless what it fetched is no directory, and from the directory that was
  fetched last. -/
  answered : ∀ x, (v.run c).1 = .ok x ↔ (∀ r ∈ v.replies c, ∃ members, Lists r members)
    ∧ ∃ members, Latest (past ++ v.replies c) members ∧ x = v.inquiry.answer members
  /-- What is no directory is reported. -/
  reported : ∀ e, (v.run c).1 = .error e ↔ ∃ r ∈ v.replies c, Refused r e
  /-- An inquiry that fails leaves the directory and all later inquiries as they were. -/
  unchanged : ∀ e, (v.run c).1 = .error e → (v.run c).2.directory = c.directory
    ∧ ∀ more, (v.run c).2.answers more = c.answers more ∧ (v.run c).2.sent more = c.sent more

/-- Which server was there before makes no difference to a visit. -/
theorem answers_server (c : Connection) (server : Http.Script) (visits : List Visit) :
    { c with server }.answers visits = c.answers visits := by
  cases visits <;> rfl

theorem sent_server (c : Connection) (server : Http.Script) (visits : List Visit) :
    { c with server }.sent visits = c.sent visits := by
  cases visits <;> rfl

/-- An answer that was taken from what is kept after it. -/
theorem Knows.answered {c : Connection} {past : List Reply} {v : Visit}
    {values : List (String × Json)} (h : Knows c past)
    (hanswer : (v.run c).1 = .ok (v.inquiry.answerOf values))
    (hkept : (v.run c).2.directory = some values) (x : Option String) :
    (v.run c).1 = .ok x
      ↔ ∃ members, Latest (past ++ v.replies c) members ∧ x = v.inquiry.answer members := by
  obtain ⟨members, hlatest, hvalues⟩ := (h.run v).latest hkept
  rw [hanswer, Inquiry.answerOf_eq hvalues]
  constructor
  · intro hx
    cases hx
    exact ⟨members, hlatest, rfl⟩
  · rintro ⟨others, hothers, rfl⟩
    rw [hothers.unique hlatest]

/-- A connection that keeps what was listed last is lawful. -/
theorem Knows.lawful {c : Connection} {past : List Reply} (h : Knows c past) (v : Visit) :
    Lawful c.directoryUrl past c v := by
  have hnone := h.directory_eq_none_iff
  rcases v.run_cases c with ⟨hv, hsent, values, hkept, hrun⟩ | ⟨hfetch, hsent, hrun⟩
  · -- answered from what is kept
    have hreplies : v.replies c = [] := by rw [Visit.replies, hsent, List.map_nil]
    have hlisted : ¬Unlisted past := by
      rw [← hnone, hkept]
      exact Option.some_ne_none values
    refine ⟨v.requests_run c, fun h => ?_, fun _ _ => hsent, fun x => ?_, fun e => ?_, fun e he => ?_⟩
    · exact absurd h (not_or.mpr ⟨hv, hlisted⟩)
    · rw [h.answered (congrArg Prod.fst hrun) (by rw [hrun]; exact hkept)]
      simp [hreplies]
    · simp [hrun, hreplies]
    · rw [hrun] at he
      cases he
  · -- fetched
    have hreplies := Visit.replies_of_sent hsent
    have hsilent : v.inquiry ≠ .refresh → ¬Unlisted past → v.sent c = [] := fun hv hlisted =>
      absurd hfetch (not_or.mpr ⟨hv, mt hnone.mp hlisted⟩)
    rcases hrun with ⟨members, values, server, hmembers, -, hrun⟩ | ⟨e, server, he, hrun⟩
    · refine ⟨v.requests_run c, fun _ => hsent, hsilent, fun x => ?_, fun e => ?_, fun e he => ?_⟩
      · have hgood : ∀ r ∈ v.replies c, ∃ members, Lists r members := by
          rw [hreplies]
          exact List.forall_mem_singleton.mpr ⟨members, hmembers⟩
        rw [h.answered (congrArg Prod.fst hrun) (by rw [hrun])]
        exact (and_iff_right hgood).symm
      · have hgood : ¬Refused (v.reply c) e := fun he => he.not_lists members hmembers
        simp [hrun, hreplies, hgood]
      · rw [hrun] at he
        cases he
    · refine ⟨v.requests_run c, fun _ => hsent, hsilent, fun x => ?_, fun f => ?_, fun _ _ => ?_⟩
      · simp [hrun, hreplies, he.not_lists]
      · have hsame : e = f ↔ Refused (v.reply c) f := ⟨fun h => h ▸ he, he.unique⟩
        simp [hrun, hreplies, hsame]
      · rw [hrun]
        exact ⟨rfl, fun more => ⟨answers_server c server more, sent_server c server more⟩⟩

/-- Whatever inquiries were made and whatever the server brought back for them, the next inquiry is
lawful. -/
theorem directory_lawful (server : Http.Script) (url : String) (visits : List Visit) (v : Visit) :
    Lawful url (replies (.start server url) visits) (visited (.start server url) visits) v := by
  have hknows := (Knows.start server url).visited visits
  have hlawful := hknows.lawful v
  rw [directoryUrl_visited] at hlawful
  exact hlawful

/-- A server that answers one request for the directory with a body. -/
def publishing (url : String) (body : Bytes) : Http.Script :=
  Http.Script.empty.push (.get, url) ((Http.Response.ofCode 200).withBody body)

/-- A directory whose terms of service are an empty text. -/
def blankTerms : Bytes := Bytes.ofText "\x7b\"meta\":\x7b\"termsOfService\":\"\"\x7d\x7d"

/-- A directory with one more member than its URL. -/
def withMember (written : String) : Bytes :=
  Bytes.ofText ("\x7b\"newNonce\":\"https://ca/nonce\",\"more\":" ++ written ++ "\x7d")

/-- The octets write an object, but it is refused as a directory. -/
def Unkept (b : Bytes) : Prop :=
  (∃ members, Node.Writes (.object members) b)
    ∧ (Visit.run ⟨publishing "https://ca/dir" b, .resolve "newNonce"⟩
      (.start .empty "https://ca/dir")).1 = .error .json

def isObject : Node → Bool
  | .object _ => true
  | _ => false

theorem exists_writes_object {b : Bytes} (h : (Node.read b).any isObject) :
    ∃ members, Node.Writes (.object members) b := by
  cases hread : Node.read b with
  | none =>
    rw [hread] at h
    cases h
  | some n =>
    rw [hread] at h
    cases n with
    | object members => exact ⟨members, Node.read_eq_some_iff.mp hread⟩
    | null | bool _ | number _ | string _ | array _ => cases h

/-- An empty text is told as the terms of service. An object is refused because of a number beyond all
floating point numbers, half of a surrogate pair, or too many arrays inside one another, also in a member
that is not asked for. -/
theorem blankTerms_answered_others_unkept :
    (Node.Writes (.object [(Bytes.ofText "meta",
          .object [(Bytes.ofText "termsOfService", .string [])])]) blankTerms
      ∧ (Visit.run ⟨publishing "https://ca/dir" blankTerms, .termsOfService⟩
          (.start .empty "https://ca/dir")).1 = .ok (some ""))
    ∧ Unkept (withMember "1e400")
    ∧ Unkept (withMember "\"\\ud800\"")
    ∧ Unkept (withMember (String.ofList (List.replicate 127 '[' ++ List.replicate 127 ']'))) :=
  ⟨⟨Node.read_eq_some_iff.mp rfl, by decide +kernel⟩,
    ⟨exists_writes_object (by decide +kernel), by decide +kernel⟩,
    ⟨exists_writes_object (by decide +kernel), by decide +kernel⟩,
    ⟨exists_writes_object (by decide +kernel), by decide +kernel⟩⟩

end Acme.Connection
