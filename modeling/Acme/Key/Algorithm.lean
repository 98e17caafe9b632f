import Acme.Text.LowerCase

/-!
# Key algorithms

The two kinds of keys that accounts and certificates may have. Each has a tag, under which account
files store it, and the name of the signature algorithm that goes with it.
-/

namespace Acme

inductive KeyAlgorithm
  | ecdsaP256
  | rsa2048
  deriving DecidableEq, Repr

namespace KeyAlgorithm

/-- The tag in account files. -/
def tag : KeyAlgorithm → String
  | ecdsaP256 => "ecdsa"
  | rsa2048 => "rsa"

/-- The name of the signature algorithm in protected headers. -/
def signatureName : KeyAlgorithm → String
  | ecdsaP256 => "ES256"
  | rsa2048 => "RS256"

def name : KeyAlgorithm → String
  | ecdsaP256 => "EcdsaP256"
  | rsa2048 => "Rsa2048"

end KeyAlgorithm

/-- Why a key is refused. -/
inductive KeyError
  /-- The octets are no key. -/
  | malformed
  /-- The key is of no kind that is supported. -/
  | unsupported (kind : String)
  /-- The key is of another kind than the one that was asked for. -/
  | mismatch (expected found : KeyAlgorithm)
  /-- The public key is the point at infinity, which has no coordinates. -/
  | noCoordinates
  /-- The key lacks something that has to be written, or has no room for it. -/
  | unwritable
  /-- The key lacks something that signing needs. -/
  | unusable
  /-- No signature was found. -/
  | signing
  /-- A signature cannot be written in the form of messages. -/
  | encoding
  deriving DecidableEq, Repr

/-- The text of an error. Of keys that cannot be read, written or used there is nothing to say. -/
def KeyError.message? : KeyError → Option String
  | .unsupported kind => some ("Unsupported algorithm: " ++ kind)
  | .mismatch expected found =>
    some ("Key type mismatch: expected " ++ expected.tag ++ ", found " ++ found.tag)
  | .signing => some "Signature error: Signing error: no signature found"
  | .malformed | .noCoordinates | .unwritable | .unusable | .encoding => none

/-- The algorithm that a word stands for, in either case. -/
def KeyAlgorithm.ofText (word : String) : Except KeyError KeyAlgorithm :=
  let word := Text.lowercase word
  if word ∈ ["ecdsa", "ec", "es256", "p256", "p-256"] then .ok ecdsaP256
  else if word ∈ ["rsa", "rs256"] then .ok rsa2048
  else .error (.unsupported word)

end Acme
