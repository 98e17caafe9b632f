import Acme.Authorization
import Acme.Table

/-!
# Responders

A responder serves the proofs of challenges where the server looks for them: under the challenge's
token if it is a file on a web server, and otherwise under the name of the host. What is served
under a type and a key is replaced when something else is.
-/

namespace Acme

/-- What is served, by type of challenge and key. -/
structure Responder where
  served : Table (ChallengeType × String) String
  deriving DecidableEq, Repr

/-- Why a challenge is not served. -/
inductive ResponderError
  | unsupported (type : ChallengeType)
  deriving DecidableEq, Repr

def ResponderError.message : ResponderError → String
  | .unsupported type => "Challenge type not supported by responder: " ++ type.text

namespace Responder

/-- A responder that serves nothing. -/
def empty : Responder := ⟨.empty⟩

/-- What is served for a type under a key. -/
def get? (r : Responder) (type : ChallengeType) (key : String) : Option String :=
  r.served.get? (type, key)

/-- Serves a text for a type under a key. -/
def provide (r : Responder) (type : ChallengeType) (key value : String) : Responder :=
  ⟨r.served.insert (type, key) value⟩

/-- Serves nothing any more for a type under a key. -/
def withdraw (r : Responder) (type : ChallengeType) (key : String) : Responder :=
  ⟨r.served.erase (type, key)⟩

/-- How many texts are served. -/
def size (r : Responder) : Nat := r.served.size

/-- Whether nothing is served. -/
def isEmpty (r : Responder) : Bool := r.size == 0

/-- The key under which the proof of a challenge is served. -/
def key (a : Authorization) (c : Challenge) : Except ResponderError String :=
  match c.type with
  | .http => .ok c.token
  | .dns | .tlsAlpn => .ok a.host
  | .other name => .error (.unsupported (.other name))

end Responder

end Acme
