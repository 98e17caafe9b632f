import Acme.Proofs.History
import Acme.Proofs.Key.Reading
import Acme.Proofs.Session.Rules
import Acme.Session.Challenges

/-!
# Served challenges

What a responder serves after the proofs of some challenges were provisioned and cleaned up, in any
sessions. Every proof has a place: a type, and the challenge's token or the name of the host
(`Responder.placeOf`). What is served at a place is what the last call there has left
(`Responder.get?_of_arises`). Challenges of one type share a place if they are for one host, unless they
are shown by web servers: so a proof is served until it is cleaned up or until another challenge comes to
its place (`Responder.get?_provisioned`).
-/

namespace Acme

namespace Responder

/-- Where the proof of a challenge is served. -/
def placeOf (a : Authorization) (c : Challenge) : ChallengeType × String :=
  (c.type, if c.type = .http then c.token else a.host)

/-- A call that succeeded. -/
inductive Event
  | provisioned (a : Authorization) (c : Challenge) (value : String)
  | cleanedUp (a : Authorization) (c : Challenge)

namespace Event

def authorization : Event → Authorization
  | provisioned a _ _ | cleanedUp a _ => a

def challenge : Event → Challenge
  | provisioned _ c _ | cleanedUp _ c => c

def place (e : Event) : ChallengeType × String := placeOf e.authorization e.challenge

/-- What is served at the place of an event from then on. -/
def value? : Event → Option String
  | provisioned _ _ value => some value
  | cleanedUp _ _ => none

end Event

/-- A responder that serves nothing before some calls, each of which succeeded in some session. -/
inductive Arises : List Event → Responder → Prop
  | empty : Arises [] .empty
  | provision {history : List Event} {r r' : Responder} {a : Authorization} {c : Challenge}
    {value : String} {s s' : Session} (h : Arises history r)
    (hrun : Session.provision a c r s = ((.ok value, r'), s')) :
    Arises (history ++ [.provisioned a c value]) r'
  | cleanUp {history : List Event} {r r' : Responder} {a : Authorization} {c : Challenge}
    {s s' : Session} (h : Arises history r) (hrun : Session.cleanUp a c r s = ((.ok (), r'), s')) :
    Arises (history ++ [.cleanedUp a c]) r'

/-! ### Single calls -/

variable {a : Authorization} {c : Challenge} {r r' : Responder} {s s' : Session} {value : String}

theorem placeOf_of_key {key : String} (h : Responder.key a c = .ok key) :
    placeOf a c = (c.type, key) := by
  unfold Responder.key at h
  unfold placeOf
  cases htype : c.type <;> rw [htype] at h <;> cases h <;> rfl

theorem keyAuthorization_apply (token : String) (s : Session) :
    Session.keyAuthorization token s = (match s.table.active? with
      | some account =>
        (account.signer.thumbprint.map (Challenge.keyAuthorization token)).mapError .key
      | none => .error .noActiveAccount, s) := by
  have hget : (get : Operation Session) s = (.ok s, s) := rfl
  rw [Session.keyAuthorization, Stateful.bind_ok hget]
  cases s.table.active? with
  | none => rfl
  | some account =>
    dsimp only
    rw [Stateful.bind_apply, Operation.ofExcept]
    cases account.signer.thumbprint <;> rfl

/-- A proof that is provisioned is the active account's, and it is served at its place. -/
theorem provision_ok (h : Session.provision a c r s = ((.ok value, r'), s')) :
    (∃ account thumbprint, s.table.active? = some account
        ∧ account.signer.thumbprint = .ok thumbprint
        ∧ value = Challenge.keyAuthorization c.token thumbprint)
      ∧ r'.served = r.served.insert (placeOf a c) value := by
  rw [Session.provision, OperationOn.bind_apply, Operation.on, keyAuthorization_apply] at h
  -- the account, its thumbprint and the place are looked up one after another
  cases hactive : s.table.active? with
  | none =>
    rw [hactive] at h
    cases h
  | some account =>
    rw [hactive] at h
    dsimp only at h
    cases hthumbprint : account.signer.thumbprint with
    | error e =>
      rw [hthumbprint] at h
      cases h
    | ok thumbprint =>
      rw [hthumbprint] at h
      dsimp only [Except.map, Except.mapError] at h
      rw [OperationOn.bind_apply, Operation.on, Session.responderKey, Operation.ofExcept] at h
      cases hkey : Responder.key a c with
      | error e =>
        rw [hkey] at h
        cases h
      | ok key =>
        rw [hkey] at h
        cases h
        exact ⟨⟨account, thumbprint, rfl, hthumbprint, rfl⟩, by rw [placeOf_of_key hkey]; rfl⟩

theorem cleanUp_ok (h : Session.cleanUp a c r s = ((.ok (), r'), s')) :
    r'.served = r.served.erase (placeOf a c) := by
  rw [Session.cleanUp, OperationOn.bind_apply, Operation.on, Session.responderKey,
    Operation.ofExcept] at h
  cases hkey : Responder.key a c with
  | error e =>
    rw [hkey] at h
    cases h
  | ok key =>
    rw [hkey] at h
    cases h
    rw [placeOf_of_key hkey]
    rfl

/-! ### Histories -/

variable {history : List Event}

/-- What an event makes of what is served at a place. -/
def Event.change? (place : ChallengeType × String) (e : Event) : Option (Option String) :=
  if e.place = place then some e.value? else none

/-- At every place the last call decides. -/
theorem get?_of_arises (h : Arises history r) (place : ChallengeType × String) :
    r.served.get? place = lastChange (Event.change? place) history := by
  induction h with
  | empty => rfl
  | @provision history r r' a c value _ _ _ hrun ih =>
    rw [(provision_ok hrun).2, Table.get?_insert, lastChange_concat, ih, Event.change?]
    show (if placeOf a c = place then some value else _)
      = (if placeOf a c = place then some (some value) else none).getD _
    split <;> rfl
  | @cleanUp history r r' a c _ _ _ hrun ih =>
    rw [cleanUp_ok hrun, Table.get?_erase, lastChange_concat, ih, Event.change?]
    show (if placeOf a c = place then none else _)
      = (if placeOf a c = place then some none else none).getD _
    split <;> rfl

/-- What is served at a place was provisioned there by a call that no other has followed there. -/
theorem get?_eq_some_iff (h : Arises history r) {place : ChallengeType × String} :
    r.served.get? place = some value
      ↔ ∃ before a c after, history = before ++ .provisioned a c value :: after
        ∧ placeOf a c = place ∧ ∀ e ∈ after, e.place ≠ place := by
  have hnone (e : Event) : e.change? place = none ↔ e.place ≠ place := by
    simp [Event.change?]
  rw [get?_of_arises h, lastChange_eq_some_iff]
  simp only [hnone]
  constructor
  · rintro ⟨before, e, after, hsplit, he, hafter⟩
    -- of the two kinds of events only one puts a value at a place
    cases e with
    | provisioned a c other =>
      rw [Event.change?] at he
      split at he
      · rename_i hplace
        cases he
        exact ⟨before, a, c, after, hsplit, hplace, hafter⟩
      · cases he
    | cleanedUp a c =>
      rw [Event.change?] at he
      split at he <;> cases he
  · rintro ⟨before, a, c, after, hsplit, hplace, hafter⟩
    exact ⟨before, .provisioned a c value, after, hsplit, if_pos hplace, hafter⟩

/-- A proof is served until a call for a challenge of its type with its token, if web servers show it, or
else for its host. Once all proofs have been cleaned up, nothing is served. -/
theorem get?_provisioned (h : Arises history r) :
    (∀ before a c value after, history = before ++ .provisioned a c value :: after →
        (∀ e ∈ after, e.challenge.type = c.type →
          if c.type = .http then e.challenge.token ≠ c.token else e.authorization.host ≠ a.host) →
        r.get? c.type (if c.type = .http then c.token else a.host) = some value)
      ∧ ((∀ before a c value after, history = before ++ .provisioned a c value :: after →
          ∃ a' c', .cleanedUp a' c' ∈ after ∧ c'.type = c.type ∧ c'.token = c.token
            ∧ a'.host = a.host) →
        r.isEmpty) := by
  refine ⟨?served, ?empty⟩
  case served =>
    intro before a c value after hsplit hafter
    refine (get?_eq_some_iff h).mpr ⟨before, a, c, after, hsplit, rfl, fun e he hplace => ?_⟩
    obtain ⟨htype, hkey⟩ := Prod.mk.inj hplace
    have hother := hafter e he htype
    rw [htype] at hkey
    -- places are told apart by what the type shows: the token or the host
    split at hother
    · rename_i hhttp
      rw [if_pos hhttp, if_pos hhttp] at hkey
      exact hother hkey
    · rename_i hhttp
      rw [if_neg hhttp, if_neg hhttp] at hkey
      exact hother hkey
  case empty =>
    intro hcleaned
    have hnothing (place : ChallengeType × String) : r.served.get? place = none := by
      cases hvalue : r.served.get? place with
      | none => rfl
      | some value =>
        obtain ⟨before, a, c, after, hsplit, hplace, hafter⟩ := (get?_eq_some_iff h).mp hvalue
        obtain ⟨a', c', hmem, htype, htoken, hhost⟩ := hcleaned before a c value after hsplit
        have hsame : placeOf a' c' = placeOf a c := by
          rw [placeOf, placeOf, htype, htoken, hhost]
        -- the call that cleaned up came after the one that provisioned, at the same place
        exact absurd (hsame.trans hplace) (hafter _ hmem)
    rw [isEmpty, size, Table.size_eq_zero hnothing]
    rfl

/-- A session with an active account, whose key is the one with the secret number one. -/
def owner : Session where
  config := .default
  connection := .start .empty "https://ca/dir"
  table := AccountTable.empty.add ⟨"https://ca/acct/1", [], .ec .unit, []⟩ true

/-- The authorization for a host, or for all names below it. -/
def authorizationOf (wildcard : Bool) : Authorization where
  id := ""
  status := .pending
  identifier := .dns "example.com"
  challenges := []
  expires := none
  wildcard := wildcard

def challengeOf (type : ChallengeType) (token : String) : Challenge :=
  ⟨type, "", token, .pending, none, none⟩

/-- The proof of the active account for a token. -/
def proofOf (token : String) : String :=
  Challenge.keyAuthorization token (Jwk.ec "P-256" (Base64.toUrl (P256.fieldBytes P256.generator.x))
    (Base64.toUrl (P256.fieldBytes P256.generator.y))).thumbprint

/-- The proof of a host on a web server and in a record, of which the first one is cleaned up. -/
def hostHistory : List Event :=
  [.provisioned (authorizationOf false) (challengeOf .http "a") (proofOf "a"),
    .provisioned (authorizationOf false) (challengeOf .dns "b") (proofOf "b"),
    .cleanedUp (authorizationOf false) (challengeOf .http "a")]

theorem hostHistory_served :
    ∃ r r', Arises hostHistory r ∧ r.get? .dns "example.com" = some (proofOf "b")
      ∧ Arises (hostHistory ++ [.cleanedUp (authorizationOf false) (challengeOf .dns "b")]) r'
      ∧ r'.isEmpty := by
  have hfile := Arises.provision .empty
    (a := authorizationOf false) (c := challengeOf .http "a") (s := owner) rfl
  have hrecord := hfile.provision
    (a := authorizationOf false) (c := challengeOf .dns "b") (s := owner) rfl
  -- cleaning up at one place leaves the other one served
  have hfirst := hrecord.cleanUp
    (a := authorizationOf false) (c := challengeOf .http "a") (s := owner) rfl
  have hboth := hfirst.cleanUp
    (a := authorizationOf false) (c := challengeOf .dns "b") (s := owner) rfl
  refine ⟨_, _, hfirst, ?_, hboth, ?_⟩
  · refine (get?_provisioned hfirst).1 [_] (authorizationOf false) (challengeOf .dns "b") _ [_] rfl ?_
    simp [Event.challenge, challengeOf]
  · refine (get?_provisioned hboth).2 fun before a c value after hsplit => ?_
    match before with
    | [] =>
      cases hsplit
      exact ⟨_, _, .tail _ (.head _), rfl, rfl, rfl⟩
    | [_] =>
      cases hsplit
      exact ⟨_, _, .tail _ (.head _), rfl, rfl, rfl⟩
    | [_, _] => cases hsplit
    | [_, _, _] => cases hsplit
    | _ :: _ :: _ :: _ :: _ => simp at hsplit

/-- Proofs for a host and for the names below it, of which the second one is cleaned up. -/
def wildcardHistory : List Event :=
  [.provisioned (authorizationOf false) (challengeOf .dns "a") (proofOf "a"),
    .provisioned (authorizationOf true) (challengeOf .dns "b") (proofOf "b"),
    .cleanedUp (authorizationOf true) (challengeOf .dns "b")]

/-- The proof for the host is not served any more, although nobody has cleaned it up. -/
theorem wildcardHistory_unserved :
    ∃ r, Arises wildcardHistory r ∧ (challengeOf .dns "a").token ≠ (challengeOf .dns "b").token
      ∧ r.get? .dns (authorizationOf false).host = none := by
  have hhost := Arises.provision .empty
    (a := authorizationOf false) (c := challengeOf .dns "a") (s := owner) rfl
  have hnames := hhost.provision
    (a := authorizationOf true) (c := challengeOf .dns "b") (s := owner) rfl
  have hcleaned := hnames.cleanUp
    (a := authorizationOf true) (c := challengeOf .dns "b") (s := owner) rfl
  exact ⟨_, hcleaned, by decide, rfl⟩

end Responder

end Acme
