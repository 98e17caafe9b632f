import Acme.Account
import Acme.Authorization
import Acme.Base64
import Acme.Bytes
import Acme.Calendar
import Acme.Certificate.Basic
import Acme.Certificate.Time
import Acme.Challenge
import Acme.Config
import Acme.Connection.Basic
import Acme.Connection.Directory
import Acme.Connection.Nonce
import Acme.Crypto.Curves
import Acme.Crypto.Ecdsa
import Acme.Crypto.Modular
import Acme.Crypto.P256
import Acme.Crypto.Rsa
import Acme.Crypto.Sha256
import Acme.Der
import Acme.Http.Header
import Acme.Http.Response
import Acme.Http.Script
import Acme.Http.Setup
import Acme.Http.Status
import Acme.Identifier
import Acme.IpAddress
import Acme.Json.Basic
import Acme.Json.Binary64
import Acme.Json.Node
import Acme.Json.Record
import Acme.Json.Value
import Acme.Jwk
import Acme.Jws.Basic
import Acme.Jws.Header
import Acme.Jws.Sign
import Acme.Key.Algorithm
import Acme.Key.Basic
import Acme.Key.Ec
import Acme.Key.Generate
import Acme.Key.Rsa
import Acme.Order
import Acme.Payload
import Acme.Pem
import Acme.Polling
import Acme.Problem
import Acme.Proofs.Account
import Acme.Proofs.Base64
import Acme.Proofs.Base64.Canonical
import Acme.Proofs.Connection.Conversation
import Acme.Proofs.Connection.Directory
import Acme.Proofs.Connection.Draws
import Acme.Proofs.Connection.Ledger
import Acme.Proofs.Connection.Renewal
import Acme.Proofs.Connection.Steps
import Acme.Proofs.Connection.Transitions
import Acme.Proofs.Crypto.Modular
import Acme.Proofs.Crypto.P256
import Acme.Proofs.Der
import Acme.Proofs.FirstFailure
import Acme.Proofs.History
import Acme.Proofs.Http.Replay
import Acme.Proofs.IpAddress
import Acme.Proofs.Json.Arrangement
import Acme.Proofs.Json.Compact
import Acme.Proofs.Json.Grammar
import Acme.Proofs.Json.Members
import Acme.Proofs.Json.Numbers
import Acme.Proofs.Json.Parsing
import Acme.Proofs.Json.Pretty
import Acme.Proofs.Json.Reading
import Acme.Proofs.Json.Records
import Acme.Proofs.Json.Stability
import Acme.Proofs.Json.Strings
import Acme.Proofs.Json.Values
import Acme.Proofs.Jwk
import Acme.Proofs.Jws.Binding
import Acme.Proofs.Jws.NormalForm
import Acme.Proofs.Jws.RoundTrip
import Acme.Proofs.Key.Ec
import Acme.Proofs.Key.Identity
import Acme.Proofs.Key.PublicKey
import Acme.Proofs.Key.Reading
import Acme.Proofs.Key.Rsa
import Acme.Proofs.Key.Serialization
import Acme.Proofs.Key.Signatures
import Acme.Proofs.Key.Support
import Acme.Proofs.Payload
import Acme.Proofs.Pem.RoundTrip
import Acme.Proofs.Polling
import Acme.Proofs.Resource
import Acme.Proofs.Resource.Arrangement
import Acme.Proofs.Session.Answers
import Acme.Proofs.Session.Atomicity
import Acme.Proofs.Session.Authentication
import Acme.Proofs.Session.Authorizations
import Acme.Proofs.Session.Calls
import Acme.Proofs.Session.Changes
import Acme.Proofs.Session.Clean
import Acme.Proofs.Session.Commands
import Acme.Proofs.Session.Effects
import Acme.Proofs.Session.Faults
import Acme.Proofs.Session.Keys
import Acme.Proofs.Session.Nonces
import Acme.Proofs.Session.Options
import Acme.Proofs.Session.Orders
import Acme.Proofs.Session.Persistence
import Acme.Proofs.Session.Polling
import Acme.Proofs.Session.Posting
import Acme.Proofs.Session.Replacing
import Acme.Proofs.Session.Requests
import Acme.Proofs.Session.Rollover
import Acme.Proofs.Session.Rules
import Acme.Proofs.Session.Serving
import Acme.Proofs.Session.Signing
import Acme.Proofs.SigningRequest
import Acme.Proofs.SigningRequest.Coverage
import Acme.Proofs.SigningRequest.Reading
import Acme.Proofs.Stateful
import Acme.Proofs.Storage.Agreement
import Acme.Proofs.Storage.Calls
import Acme.Proofs.Storage.Confinement
import Acme.Proofs.Storage.Files
import Acme.Proofs.Storage.Resolution
import Acme.Proofs.Text.Utf8
import Acme.Proofs.Timestamp
import Acme.Resource
import Acme.Responder
import Acme.Session.Accounts
import Acme.Session.Basic
import Acme.Session.Challenges
import Acme.Session.Error
import Acme.Session.Orders
import Acme.Session.Polling
import Acme.Session.Signing
import Acme.SigningRequest
import Acme.Storage.Basic
import Acme.Storage.Files
import Acme.Storage.Path
import Acme.Table
import Acme.Text.Blank
import Acme.Text.CaseData
import Acme.Text.CharSet
import Acme.Text.Escaped
import Acme.Text.Lossy
import Acme.Text.LowerCase
import Acme.Text.Quoted
import Acme.Timestamp
