import Acme.Http.Script

/-!
# Connections

What one client knows about its server: the directory, once it has been fetched, and the nonce for
the next request. An `Exchange` is a piece of conversation over a connection. It may fail, and what
it learnt before it failed remains.
-/

namespace Acme

/-- The state of a connection. The nonce is empty until one has been received. -/
structure Connection where
  server : Http.Script
  directoryUrl : String
  directory : Option (List (String × Json))
  nonce : String

/-- A piece of conversation, which may fail. -/
abbrev Exchange (ε α : Type) : Type := ExceptT ε (StateM Connection) α

namespace Connection

/-- A connection over which nothing has been sent yet. -/
def start (server : Http.Script) (directoryUrl : String) : Connection :=
  { server, directoryUrl, directory := none, nonce := "" }

def send (request : Http.Request) : Exchange Http.TransportError Http.Response :=
  fun c =>
    let (r, server) := c.server.respond request
    (r, { c with server })

def heldNonce? (c : Connection) : Option String := if c.nonce = "" then none else some c.nonce

end Connection

end Acme
