import Acme.Account
import Acme.Certificate.Basic
import Acme.Config
import Acme.Connection.Nonce
import Acme.Http.Setup
import Acme.Jws.Sign
import Acme.Payload
import Acme.Responder
import Acme.SigningRequest

/-!
# Errors of sessions

Everything that can go wrong in a session. An error of configuration (`SessionError.isConfig`) is
found before anything is changed or signed, and it will come back if nothing is changed.
-/

namespace Acme

/-- Why an operation of a session fails. -/
inductive SessionError
  | config (cause : ConfigError)
  | setup (cause : Http.SetupError)
  | noActiveAccount
  | alreadyCreated (id : String)
  /-- The server has not given the account a URL. -/
  | notCreated
  | noAccountAt (index : Nat)
  | noEndpoint (name : String)
  /-- A resource lacks a URL that is needed. -/
  | noUrl (of : String)
  | unexpectedStatus (expected status : Http.Status) (problem : Option Problem) (body : String)
  /-- An answer does not say where the new resource is. -/
  | noLocation
  | orderNotValid
  | transport (cause : Http.TransportError)
  | directory (cause : DirectoryError)
  | nonce (cause : NonceError)
  | sign (cause : SignError)
  | key (cause : KeyError)
  | payload (cause : PayloadError)
  | request (cause : RequestError)
  | certificate (cause : CertificateError)
  | responder (cause : ResponderError)
  | json
  deriving DecidableEq, Repr

namespace SessionError

/-- What a server says about an unexpected status. -/
def reason (problem : Option Problem) (body : String) : String :=
  match problem with
  | some p => p.text
  | none => body

/-- The text of an error, if it has one of its own. -/
def message? : SessionError → Option String
  | config cause => cause.message?.map ("Configuration error: " ++ ·)
  | setup _ => none
  | noActiveAccount => some "No active account"
  | alreadyCreated id => some ("Account already created: " ++ id)
  | notCreated => some "Account has not been created on the server"
  | noAccountAt index => some ("No account at index " ++ toString index)
  | noEndpoint name => some ("Directory has no " ++ name ++ " endpoint")
  | noUrl of => some ("Resource has no " ++ of ++ " URL")
  | unexpectedStatus expected status problem body =>
    some ("Unexpected HTTP status " ++ status.text ++ ", expected " ++ expected.text ++ ": "
      ++ reason problem body)
  | noLocation => some "Response has no Location header"
  | orderNotValid => some "Order is not valid"
  | transport cause => some ("Transport error: " ++ cause.message)
  | directory cause => cause.message?.map ("Directory error: " ++ ·)
  | nonce cause => cause.message?.map ("Nonce error: " ++ ·)
  | sign cause => cause.message?.map ("JWS error: " ++ ·)
  | key cause => cause.message?.map ("Key error: " ++ ·)
  | payload cause => some ("Payload error: " ++ cause.message)
  | request cause => cause.message?.map ("CSR error: " ++ ·)
  | certificate cause => cause.message?.map ("Certificate error: " ++ ·)
  | responder cause => some ("Challenge responder error: " ++ cause.message)
  | json => none

/-- Whether the configuration, the accounts or the options are at fault. -/
def isConfig : SessionError → Bool
  | config _ | noActiveAccount | alreadyCreated _ | notCreated | noAccountAt _ | noEndpoint _ => true
  | sign cause => cause.isConfig
  | _ => false

/-- The type that the server gives to what went wrong. -/
def problemType? : SessionError → Option String
  | unexpectedStatus _ _ problem _ => problem.map (·.type)
  | _ => none

end SessionError

end Acme
