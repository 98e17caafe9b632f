import Acme.Session.Error

/-!
# Sessions

A session is one client at work: its configuration, its connection, and its accounts with their
keys. One of the accounts may be active; it signs what is not signed otherwise.

An `Operation` is a piece of work in a session. It may fail, and what it has changed before it fails
remains changed. An `OperationOn` works besides on an object of the caller, which it may have changed
even if it fails.
-/

namespace Acme

/-- The accounts of a session, in the order in which they were added, and keys by name. The key of
a registered account has the account's URL for its name. -/
structure AccountTable where
  keys : Table String KeyPair
  accounts : List Account
  /-- The place of the active account. -/
  active : Option Nat
  deriving DecidableEq, Repr

namespace AccountTable

def empty : AccountTable := { keys := .empty, accounts := [], active := none }

def active? (t : AccountTable) : Option Account := t.active.bind (t.accounts[·]?)

def addKey (t : AccountTable) (name : String) (k : KeyPair) : AccountTable :=
  { t with keys := t.keys.insert name k }

/-- Adds an account at the end, and its key if it is registered. -/
def add (t : AccountTable) (a : Account) (activate : Bool) : AccountTable :=
  let t := if a.isRegistered then t.addKey a.id a.signer else t
  { t with
    accounts := t.accounts ++ [a]
    active := if activate then some t.accounts.length else t.active }

def modify (t : AccountTable) (index : Nat) (change : Account → Account) : AccountTable :=
  { t with accounts := t.accounts.modify index change }

/-- Adds the URL of an order to the first account with an identifier. -/
def recordOrder (t : AccountTable) (id url : String) : AccountTable :=
  match t.accounts.findIdx? (·.id == id) with
  | some index => t.modify index fun a => { a with orders := a.orders ++ [url] }
  | none => t

end AccountTable

structure Session where
  config : Config
  connection : Connection
  table : AccountTable

/-- A piece of work in a session. -/
abbrev Operation (α : Type) : Type := ExceptT SessionError (StateM Session) α

/-- A piece of work in a session on an object of the caller. -/
abbrev OperationOn (β α : Type) : Type := ExceptT SessionError (StateT β (StateM Session)) α

namespace Operation

/-- What does not depend on the session. -/
def ofExcept {ε α : Type} (wrap : ε → SessionError) (r : Except ε α) : Operation α :=
  ExceptT.mk (pure (r.mapError wrap))

/-- A piece of conversation over the session's connection. -/
def exchange {ε α : Type} (wrap : ε → SessionError) (e : Exchange ε α) : Operation α :=
  fun s =>
    let (r, connection) := e.run.run s.connection
    (r.mapError wrap, { s with connection })

/-- An operation that leaves an object of the caller as it is. -/
def on {β α : Type} (x : Operation α) : OperationOn β α :=
  fun b s =>
    let (r, s) := x s
    ((r, b), s)

/-- An operation that makes a new object out of the caller's. The caller's is assigned last, after
everything that can fail, so that a failure leaves it as it was. -/
def inPlace {β : Type} (x : β → Operation β) : OperationOn β Unit := do
  let b ← (x (← getThe β)).on
  set b

end Operation

/-- An operation on an object that is not needed afterwards. -/
def OperationOn.given {β α : Type} (x : OperationOn β α) (b : β) : Operation α :=
  fun s =>
    let ((r, _), s) := x b s
    (r, s)

namespace Session

/-- A session with a server, whose configuration has to be in order. -/
def start (config : Config) (server : Http.Script) : Except SessionError Session := do
  config.validate.mapError .config
  return { config, connection := .start server config.directoryUrl, table := .empty }

/-- Checks whether there could be a session with a real server. -/
def check (config : Config) (file? : String → Option Bytes) : Except SessionError Unit := do
  config.validate.mapError .config
  (Http.setUp config file?).mapError .setup

def modifyTable (change : AccountTable → AccountTable) : Operation Unit :=
  modify fun s => { s with table := change s.table }

/-! ### Accounts and keys -/

/-- Adds an account and says at which place it stands. -/
def addAccount (a : Account) (activate : Bool) : Operation Nat := do
  let index := (← get).table.accounts.length
  modifyTable (·.add a activate)
  return index

/-- Makes the account at a place the active one. -/
def setActiveAccount (index : Nat) : Operation Unit := do
  if (← get).table.accounts.length ≤ index then throw (.noAccountAt index)
  modifyTable fun t => { t with active := some index }

def activeAccount : Operation (Option Account) := return (← get).table.active?

def accounts : Operation (List Account) := return (← get).table.accounts

def addKey (name : String) (k : KeyPair) : Operation Unit := modifyTable (·.addKey name k)

def key? (name : String) : Operation (Option KeyPair) := return (← get).table.keys.get? name

/-- The active account, which has to be registered. -/
def activeIdentity : Operation Account := do
  let some a := (← get).table.active? | throw .noActiveAccount
  if !a.isRegistered then throw .notCreated
  return a

end Session

end Acme
