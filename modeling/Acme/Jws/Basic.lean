import Acme.Jws.Header

/-!
# Signed messages

A message in the flattened form of RFC 7515: an object of three base64 strings, which are the
protected header, the payload and the signature. What is signed is the first two, joined by a
point. An empty payload is written as an empty string.
-/

namespace Acme

/-- A message as it is written: three strings in base64. -/
structure Jws where
  header : String
  payload : String
  signature : String
  deriving DecidableEq, Repr

/-- A message that has been taken apart. -/
structure ParsedJws where
  header : ProtectedHeader
  payload : Bytes
  signature : Bytes
  /-- The text that the signature is for. -/
  signingInput : String
  deriving DecidableEq, Repr

namespace Jws

/-- Why a text is not a message. -/
inductive ReadError
  /-- It is not a JSON text of the right form, or its header is not. -/
  | json
  /-- One of its strings is not base64. -/
  | base64 (cause : Base64.DecodeError)
  deriving DecidableEq, Repr

/-- The text of an error. Errors about JSON texts have no text of their own. -/
def ReadError.message? : ReadError → Option String
  | .json => none
  | .base64 cause => some ("Base64 decode error: " ++ cause.message)

/-- The message as a JSON value. -/
def toJson (j : Jws) : Json :=
  .object [("protected", .string j.header), ("payload", .string j.payload),
    ("signature", .string j.signature)]

def text (j : Jws) : String := j.toJson.text

/-- Reads the three strings. -/
def ofNode? (n : Json.Node) : Option Jws := do
  let r ← n.record? ["protected", "payload", "signature"]
  return { header := ← r.required "protected" Json.Node.text?,
           payload := ← r.required "payload" Json.Node.text?,
           signature := ← r.required "signature" Json.Node.text? }

/-- Reads the three strings from a text. -/
def ofBytes? (b : Bytes) : Option Jws := (Json.Node.read b).bind ofNode?

/-- The octets of a string in base64. -/
def decoded (s : String) : Except ReadError Bytes :=
  match Base64.ofUrl s with
  | .ok b => .ok b
  | .error e => .error (.base64 e)

/-- Takes a message apart: first its header, then its payload and its signature. -/
def parsed (j : Jws) : Except ReadError ParsedJws := do
  let header ←
    match ProtectedHeader.ofBytes? (← decoded j.header) with
    | some h => pure h
    | none => throw .json
  let payload ← decoded j.payload
  let signature ← decoded j.signature
  return { header, payload, signature, signingInput := j.header ++ "." ++ j.payload }

/-- Reads a message and takes it apart. -/
def parse (b : Bytes) : Except ReadError ParsedJws :=
  match ofBytes? b with
  | some j => j.parsed
  | none => .error .json

end Jws

end Acme
