import Acme.Key.Generate
import Acme.Storage.Basic
import Acme.Text.Quoted

/-!
# Accounts

An account belongs to a key. The server gives it a URL when it is registered, which identifies it
from then on; until then it has none.

Accounts are kept in storages as records, JSON texts that hold the private key in base64. The
record names the kind of the key, and that decides how the key is read.
-/

namespace Acme

structure Account where
  /-- The URL that the server has given it, empty before that. -/
  id : String
  contact : List String
  signer : KeyPair
  /-- The URLs of the orders that it has made. -/
  orders : List String
  deriving DecidableEq, Repr

structure AccountRecord where
  id : String
  contact : List String
  orders : List String
  /-- The octets of the key in base64. -/
  privateKey : String
  /-- The tag of the kind of key. -/
  keyType : String
  deriving DecidableEq, Repr

/-- Why an account cannot be had or kept. -/
inductive AccountError
  | json
  | storage (cause : StorageError)
  | key (cause : KeyError)
  /-- The key of a record is not in base64. -/
  | keyEncoding (cause : Base64.DecodeError)
  deriving DecidableEq, Repr

/-- The text of an error, if it has one of its own. -/
def AccountError.message? : AccountError → Option String
  | json => none
  | storage cause => cause.message?.map ("Storage error: " ++ ·)
  | key cause => cause.message?.map ("Key error: " ++ ·)
  | keyEncoding cause => some ("Invalid private key encoding: " ++ cause.message)

namespace AccountRecord

def toJson (r : AccountRecord) : Json :=
  .object [("ID", .string r.id), ("Contact", Json.strings r.contact),
    ("Orders", Json.strings r.orders), ("PrivateKey", .string r.privateKey),
    ("KeyType", .string r.keyType)]

def ofNode? (n : Json.Node) : Option AccountRecord := do
  let texts := Json.Node.list? Json.Node.text?
  let r ← n.record? ["ID", "Contact", "Orders", "PrivateKey", "KeyType"]
  return {
    id := ← r.required "ID" Json.Node.text?
    contact := ← r.withDefault "Contact" texts []
    orders := ← r.withDefault "Orders" texts []
    privateKey := ← r.required "PrivateKey" Json.Node.text?
    keyType := ← r.required "KeyType" Json.Node.text? }

def ofBytes? (b : Bytes) : Option AccountRecord := (Json.Node.read b).bind ofNode?

end AccountRecord

namespace Account

def new (contact : List String) (signer : KeyPair) : Account :=
  { id := "", contact, signer, orders := [] }

/-- An account that is not registered, with a new key. -/
def generate? (contact : List String) (alg : KeyAlgorithm) (seed : Bytes) : Option Account :=
  new contact <$> KeyPair.generate? alg seed

/-- Whether the server has given the account a URL. -/
def isRegistered (a : Account) : Bool := !a.id.isEmpty

/-- The text that shows an account without giving its key away. -/
def shown (a : Account) : String :=
  "Account \x7b id: " ++ Text.quote a.id ++ ", contact: " ++ Text.quoteList a.contact
    ++ ", alg: " ++ a.signer.algorithm.name ++ ", orders: " ++ Text.quoteList a.orders ++ " \x7d"

/-! ### Records -/

/-- The record of an account, whose key has to be one that can be written. -/
def toRecord (a : Account) : Except AccountError AccountRecord := do
  let der ← a.signer.toDer.mapError .key
  return {
    id := a.id, contact := a.contact, orders := a.orders, privateKey := Base64.toStandard der,
    keyType := a.signer.algorithm.tag }

/-- The account that a record describes. -/
def ofRecord (r : AccountRecord) : Except AccountError Account := do
  let alg ← (KeyAlgorithm.ofText r.keyType).mapError .key
  let der ← (Base64.ofStandard r.privateKey).mapError .keyEncoding
  let signer ← (KeyPair.ofDer alg der).mapError .key
  return { id := r.id, contact := r.contact, signer, orders := r.orders }

/-! ### Storages -/

variable {σ : Type} [Storage σ]

/-- Stores an account under a key. -/
def save (a : Account) (key : String) : ExceptT AccountError (StateM σ) Unit := do
  let r ← ExceptT.mk (pure a.toRecord)
  (Storage.write key (Bytes.ofText r.toJson.prettyText)).adapt .storage

/-- The account that is stored under a key. -/
def restore (key : String) : ExceptT AccountError (StateM σ) Account := do
  let b ← (Storage.read key).adapt .storage
  match AccountRecord.ofBytes? b with
  | some r => ExceptT.mk (pure (ofRecord r))
  | none => throw .json

end Account

end Acme
