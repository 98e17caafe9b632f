import Acme.Connection.Basic

/-!
# The directory

The directory is the document in which a server lists the URLs of its resources by name. It is
fetched when it is first needed and kept from then on; only `refreshDirectory` fetches it again. A
fetch that fails changes nothing.
-/

namespace Acme

/-- The names of the resources that the protocol starts from. -/
inductive Endpoint
  | newNonce
  | newAccount
  | newOrder
  | revokeCert
  | keyChange
  deriving DecidableEq, Repr

def Endpoint.name : Endpoint → String
  | newNonce => "newNonce"
  | newAccount => "newAccount"
  | newOrder => "newOrder"
  | revokeCert => "revokeCert"
  | keyChange => "keyChange"

/-- Why the directory cannot be had. -/
inductive DirectoryError
  | transport (cause : Http.TransportError)
  /-- The answer is not a JSON text. -/
  | json
  | unexpectedStatus (status : Http.Status)
  | notAnObject
  deriving DecidableEq, Repr

/-- The text of an error. Errors about JSON texts have no text of their own. -/
def DirectoryError.message? : DirectoryError → Option String
  | .transport cause => some ("Request error: " ++ cause.message)
  | .json => none
  | .unexpectedStatus status => some ("Unexpected directory status: " ++ status.text)
  | .notAnObject => some "Directory response is not a JSON object"

namespace Connection

/-- What an answer says as a directory. -/
def directoryOf (r : Http.Response) : Except DirectoryError (List (String × Json)) :=
  if !r.status.isSuccess then .error (.unexpectedStatus r.status)
  else
    match Json.read? r.body with
    | some (.object members) => .ok members
    | some _ => .error .notAnObject
    | none => .error .json

def fetchDirectory : Exchange DirectoryError (List (String × Json)) := do
  let r ← (send (.get (← get).directoryUrl)).adapt .transport
  let members ← ExceptT.mk (pure (directoryOf r))
  modify fun c => { c with directory := some members }
  return members

/-- Fetches the directory again. -/
def refreshDirectory : Exchange DirectoryError Unit := do
  let _ ← fetchDirectory

/-- The directory, fetched if it has not been before. -/
def directoryMembers : Exchange DirectoryError (List (String × Json)) := do
  match (← get).directory with
  | some members => return members
  | none => fetchDirectory

def memberText? (members : List (String × Json)) (name : String) : Option String :=
  (members.lookup name).bind Json.asString?

/-- The URL that the directory has under a name. -/
def resolve (name : String) : Exchange DirectoryError (Option String) := do
  return (memberText? (← directoryMembers) name).filter (!·.isEmpty)

/-- The URL of the server's terms of service. -/
def termsOfService : Exchange DirectoryError (Option String) := do
  match (← directoryMembers).lookup "meta" with
  | some (.object members) => return memberText? members "termsOfService"
  | _ => return none

end Connection

end Acme
