import Acme.Proofs.Session.Requests
import Acme.Session.Accounts
import Acme.Session.Challenges
import Acme.Session.Polling

/-!
# Calls

A `Call` is an operation with its arguments, as a caller sees it who has an object that it works on:
`Call.run` says besides what becomes of the object, also if the operation fails. An operation that
makes a new object out of the caller's replaces it at the end (`Operation.inPlace`); those without
such an object work on nothing (`Operation.alone`). What fails in one of these ways has left the object
alone, and the session is as the operation has left it.

A session goes on by turns: the caller makes a call, or the server gets ready to give an answer. What
holds of all that can happen in a session is said about `Session.play`.
-/

namespace Acme

variable {α β ω : Type}

namespace Operation

/-- An operation without an object of the caller; its result is not looked at. -/
def alone (x : Operation α) : OperationOn Unit Unit := do
  let _ ← x.on

theorem inPlace_apply (x : β → Operation β) (b : β) (s : Session) :
    inPlace x b s =
      match x b s with
      | (.ok b', s') => ((.ok ⟨⟩, b'), s')
      | (.error e, s') => ((.error e, b), s') := by
  rw [inPlace, OperationOn.bind_apply]
  show ((x b).on >>= fun b' => (set b' : OperationOn β PUnit)) b s = _
  rw [OperationOn.bind_apply, on]
  rcases x b s with ⟨r, s'⟩
  cases r <;> rfl

theorem alone_apply (x : Operation α) (b : Unit) (s : Session) :
    x.alone b s =
      match x s with
      | (.ok _, s') => ((.ok ⟨⟩, b), s')
      | (.error e, s') => ((.error e, b), s') := by
  rw [alone, OperationOn.bind_apply, on]
  rcases x s with ⟨r, s'⟩
  cases r <;> rfl

theorem inPlace_error {x : β → Operation β} {b : β} {s : Session} {e : SessionError}
    (h : (inPlace x b s).1.1 = .error e) :
    (x b s).1 = .error e ∧ inPlace x b s = ((.error e, b), (x b s).2) := by
  rw [inPlace_apply] at h ⊢
  rcases hx : x b s with ⟨r, s'⟩
  rw [hx] at h
  cases r with
  | ok b' => cases h
  | error e' =>
    cases h
    exact ⟨rfl, rfl⟩

theorem alone_error {x : Operation α} {b : Unit} {s : Session} {e : SessionError}
    (h : (x.alone b s).1.1 = .error e) : (x s).1 = .error e ∧ x.alone b s = ((.error e, b), (x s).2) := by
  rw [alone_apply] at h ⊢
  rcases hx : x s with ⟨r, s'⟩
  rw [hx] at h
  cases r with
  | ok a => cases h
  | error e' =>
    cases h
    exact ⟨rfl, rfl⟩

/-! The session is the same, and so is whether the operation succeeds. -/

theorem inPlace_snd (x : β → Operation β) (b : β) (s : Session) : (inPlace x b s).2 = (x b s).2 := by
  rw [inPlace_apply]
  rcases x b s with ⟨r, s'⟩
  cases r <;> rfl

theorem inPlace_isOk (x : β → Operation β) (b : β) (s : Session) :
    (inPlace x b s).1.1.isOk = (x b s).1.isOk := by
  rw [inPlace_apply]
  rcases x b s with ⟨r, s'⟩
  cases r <;> rfl

theorem alone_snd (x : Operation α) (b : Unit) (s : Session) : (x.alone b s).2 = (x s).2 := by
  rw [alone_apply]
  rcases x s with ⟨r, s'⟩
  cases r <;> rfl

theorem alone_isOk (x : Operation α) (b : Unit) (s : Session) :
    (x.alone b s).1.1.isOk = (x s).1.isOk := by
  rw [alone_apply]
  rcases x s with ⟨r, s'⟩
  cases r <;> rfl

end Operation

theorem OperationOn.bind_pure_snd (x : OperationOn ω α) (g : α → β) (b : ω) (s : Session) :
    ((x >>= fun a => Pure.pure (g a)) b s).2 = (x b s).2 := by
  rw [bind_apply]
  rcases x b s with ⟨⟨r, b'⟩, s'⟩
  cases r <;> rfl

/-! ### Calls -/

/-- An operation with its arguments, by the type of the object that it works on. -/
inductive Call : Type → Type 1
  | createAccount : Call Account
  | updateAccount (contact : List String) : Call Unit
  | deactivateAccount : Call Unit
  | rollover (k : KeyPair) : Call Unit
  | createOrder : Call Order
  | update {R : Type} [Resource R] : Call R
  | fetchAuthorizations (o : Order) : Call Unit
  | pollUntil (url target : String) (policy : Option PollPolicy) (cancelled : Nat → Bool) : Call Unit
  | pollResource {R : Type} [Resource R] (target : String) (policy : Option PollPolicy)
      (cancelled : Nat → Bool) : Call R
  | respondChallenge : Call Challenge
  | deactivateAuthorization : Call Authorization
  | provision (a : Authorization) (c : Challenge) : Call Responder
  | cleanUp (a : Authorization) (c : Challenge) : Call Responder
  | keyAuthorization (token : String) : Call Unit
  | finalize (given : Option KeyPair) (seed : Bytes) : Call Order
  | download (o : Order) : Call Unit
  | revoke (certificate : Bytes) (reason : Option UInt8) (given : Option KeyPair) : Call Unit
  | fetch (url : String) : Call Unit
  | postAsGet (url : String) : Call Unit
  | getAnonymously (url : String) : Call Unit
  | sign (url : String) (payload : Bytes) : Call SignOptions
  | post (url : String) (payload : Bytes) : Call SignOptions
  | refreshNonce : Call Unit
  | endpoint (name : String) : Call Unit
  | refreshDirectory : Call Unit
  | termsOfService : Call Unit
  | addAccount (a : Account) (activate : Bool) : Call Unit
  | setActiveAccount (index : Nat) : Call Unit
  | activeAccount : Call Unit
  | accounts : Call Unit
  | addKey (name : String) (k : KeyPair) : Call Unit
  | key (name : String) : Call Unit

namespace Call

open Operation

def run : Call β → OperationOn β Unit
  | createAccount => inPlace Session.createAccount
  | updateAccount contact => (Session.updateAccount contact).alone
  | deactivateAccount => Session.deactivateAccount.alone
  | rollover k => (Session.rollover k).alone
  | createOrder => inPlace Session.createOrder
  | update => inPlace Session.update
  | fetchAuthorizations o => (Session.fetchAuthorizations o).alone
  | pollUntil url target policy cancelled => (Session.pollUntil url target policy cancelled).alone
  | pollResource target policy cancelled => do
    let _ ← Session.pollResource target policy cancelled
  | respondChallenge => inPlace Session.respondChallenge
  | deactivateAuthorization => inPlace Session.deactivateAuthorization
  | provision a c => do let _ ← Session.provision a c
  | cleanUp a c => Session.cleanUp a c
  | keyAuthorization token => (Session.keyAuthorization token).alone
  | finalize given seed => inPlace fun o => do return (← Session.finalize o given seed).1
  | download o => (Session.download o).alone
  | revoke certificate reason given => (Session.revoke certificate reason given).alone
  | fetch url => (Session.fetch url).alone
  | postAsGet url => (Session.postAsGet url).alone
  | getAnonymously url => (Session.getAnonymously url).alone
  | sign url payload => do let _ ← Session.sign url payload
  | post url payload => do let _ ← Session.post url payload
  | refreshNonce => Session.refreshNonce.alone
  | endpoint name => (Session.endpoint name).alone
  | refreshDirectory => (exchange .directory Connection.refreshDirectory).alone
  | termsOfService => (exchange .directory Connection.termsOfService).alone
  | addAccount a activate => (Session.addAccount a activate).alone
  | setActiveAccount index => (Session.setActiveAccount index).alone
  | activeAccount => Session.activeAccount.alone
  | accounts => Session.accounts.alone
  | addKey name k => (Session.addKey name k).alone
  | key name => (Session.key? name).alone

/-- The nonces of its own that the caller's object brings. Only options can. -/
def nonces? : Call β → β → Option NonceScript
  | sign .., o | post .., o => o.nonces
  | _, _ => none

end Call

/-! ### Turns -/

/-- A turn of a session: the caller makes a call, or the server gets ready to give an answer to the next
request of its kind. -/
inductive Turn : Type 1
  | call {β : Type} (c : Call β) (b : β)
  | server (route : Http.Method × String) (r : Http.Response)

namespace Turn

def run (s : Session) : Turn → Session
  | call c b => (c.run b s).2
  | server route r =>
    { s with connection := { s.connection with server := s.connection.server.push route r } }

def nonces? : Turn → Option NonceScript
  | call c b => c.nonces? b
  | server _ _ => none

def answer? : Turn → Option ((Http.Method × String) × Http.Response)
  | call _ _ => none
  | server route r => some (route, r)

end Turn

namespace Session

def play (s : Session) (turns : List Turn) : Session := turns.foldl Turn.run s

theorem play_concat (s : Session) (turns : List Turn) (turn : Turn) :
    s.play (turns ++ [turn]) = turn.run (s.play turns) := by
  rw [play, List.foldl_append]
  rfl

end Session

end Acme
