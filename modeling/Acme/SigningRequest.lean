import Acme.Identifier
import Acme.Key.Basic

/-!
# Signing requests

The document with which a certificate is ordered (RFC 2986): who it is for and which key it names,
signed with that key.

`RequestInfo` is the part that is signed. Its subject is the first host name; all names, host names
and addresses alike, stand in the extension for alternative names, in the order in which they were
given. `RequestInfo.toDer` writes it and `RequestInfo.ofDer?` reads what was written.
-/

namespace Acme

inductive RequestError
  /-- There is no name to ask for. -/
  | noNames
  | invalidAddress (text : String)
  | unsupportedIdentifier (type : String)
  /-- The first host name is empty or too long for a subject. -/
  | subjectLength
  /-- The public key cannot be written, or the key does not sign. -/
  | signing
  deriving DecidableEq, Repr

/-- The text of an error, if it has one of its own. -/
def RequestError.message? : RequestError → Option String
  | noNames => some "No SAN entries"
  | invalidAddress text => some ("Invalid IP address in SAN: " ++ text)
  | unsupportedIdentifier type => some ("Unsupported identifier type: " ++ type)
  | subjectLength | signing => none

/-- A name to ask for, as it was given. -/
inductive RequestedName
  | dns (name : String)
  | ip (address : String)
  deriving DecidableEq, Repr

/-- A name as it stands in a certificate. -/
inductive AlternativeName
  | dns (name : Bytes)
  | ip (octets : Bytes)
  deriving DecidableEq, Repr

namespace AlternativeName

def toDer : AlternativeName → Bytes
  | dns name => Der.encode (Der.Tag.context 2) name
  | ip octets => Der.encode (Der.Tag.context 7) octets

def ofItem? (i : Der.Item) : Option AlternativeName :=
  if i.tag = Der.Tag.context 2 then some (.dns i.content)
  else if i.tag = Der.Tag.context 7 then some (.ip i.content)
  else none

end AlternativeName

/-- The part of a request that is signed. -/
structure RequestInfo where
  /-- The subject, if it has a name. -/
  subject : Option Bytes
  /-- The public key, as keys describe it. -/
  publicInfo : Bytes
  names : List AlternativeName
  deriving DecidableEq, Repr

namespace RequestInfo

/-! ### The names -/

/-- The longest name of a subject, in characters. -/
def subjectLimit : Nat := 64

def firstHost? (names : List RequestedName) : Option String :=
  names.findSome? fun
    | .dns name => some name
    | .ip _ => none

/-- A name as it stands in certificates. -/
def alternative : RequestedName → Except RequestError AlternativeName
  | .dns name => .ok (.dns (Bytes.ofText name))
  | .ip text =>
    match IpAddress.ofText? text with
    | some a => .ok (.ip a.octets)
    | none => .error (.invalidAddress text)

/-- The names to ask for when a certificate has to cover identifiers. -/
def requested : List Identifier → Except RequestError (List RequestedName)
  | [] => .ok []
  | i :: rest =>
    if i.type = "dns" then (.dns i.value :: ·) <$> requested rest
    else if i.type = "ip" then (.ip i.value :: ·) <$> requested rest
    else .error (.unsupportedIdentifier i.type)

/-- The request for names with a public key, which is looked at last. -/
def make (names : List RequestedName) (publicInfo : Except KeyError Bytes) :
    Except RequestError RequestInfo := do
  if names.isEmpty then throw .noNames
  let subject := firstHost? names
  if subject.any fun name => name.isEmpty || subjectLimit < name.length then throw .subjectLength
  let names ← names.mapM alternative
  let publicInfo ← publicInfo.mapError fun _ => .signing
  return { subject := subject.map Bytes.ofText, publicInfo, names }

/-! ### Writing -/

/-- The object identifier of the name of a subject. -/
def commonName : Der.Oid := [2, 5, 4, 3]

/-- The object identifier of the extensions that are asked for. -/
def extensionRequest : Der.Oid := [1, 2, 840, 113549, 1, 9, 14]

/-- The object identifier of the extension for alternative names. -/
def alternativeNames : Der.Oid := [2, 5, 29, 17]

def set (values : List Bytes) : Bytes := Der.encode Der.Tag.set values.flatten

def subjectDer (subject : Option Bytes) : Bytes :=
  Der.sequence (subject.toList.map fun name =>
    set [Der.sequence [Der.oid commonName, Der.encode Der.Tag.utf8String name]])

/-- The octets of the extension for names. -/
def extensionDer (names : List AlternativeName) : Bytes :=
  Der.sequence [Der.oid alternativeNames,
    Der.octetString (Der.sequence (names.map AlternativeName.toDer))]

def toDer (r : RequestInfo) : Bytes :=
  Der.sequence [Der.int 0, subjectDer r.subject, r.publicInfo,
    Der.encode (Der.Tag.contextOuter 0)
      (Der.sequence [Der.oid extensionRequest, set [Der.sequence [extensionDer r.names]]])]

/-! ### Reading -/

def set? (i : Der.Item) : Option (List Der.Item) := (i.as? Der.Tag.set).bind Der.items?

def subject? (i : Der.Item) : Option (Option Bytes) := do
  match ← i.sequence? with
  | [] => return none
  | [i] =>
    match ← set? i with
    | [i] =>
      match ← i.sequence? with
      | [type, name] => if type.isOid commonName then some <$> name.as? Der.Tag.utf8String else none
      | _ => none
    | _ => none
  | _ => none

def extension? (i : Der.Item) : Option (List AlternativeName) := do
  match ← i.sequence? with
  | [type, value] =>
    let (names, rest) ← Der.next? (← value.octetString?)
    if type.isOid alternativeNames ∧ rest = [] then
      (← names.sequence?).mapM AlternativeName.ofItem?
    else none
  | _ => none

/-- The names that the attributes of a request ask for. -/
def attributes? (i : Der.Item) : Option (List AlternativeName) := do
  match ← (← i.explicit? 0).sequence? with
  | [type, values] =>
    match ← set? values with
    | [extensions] =>
      match ← extensions.sequence? with
      | [i] => if type.isOid extensionRequest then extension? i else none
      | _ => none
    | _ => none
  | _ => none

def ofDer? (b : Bytes) : Option RequestInfo := do
  let (i, rest) ← Der.next? b
  match ← i.sequence? with
  | [version, subject, publicKey, attributes] =>
    if rest = [] ∧ version.int? = some 0 then
      return {
        subject := ← subject? subject
        publicInfo := Der.encode publicKey.tag publicKey.content
        names := ← attributes? attributes }
    else none
  | _ => none

end RequestInfo

structure SigningRequest where
  /-- The octets that are signed. -/
  info : Bytes
  algorithm : KeyAlgorithm
  signature : Bytes
  deriving DecidableEq, Repr

namespace SigningRequest

/-- How signatures of a kind of key are named. -/
def signatureAlgorithm : KeyAlgorithm → Bytes
  | .ecdsaP256 => Der.sequence [Der.oid [1, 2, 840, 10045, 4, 3, 2]]
  | .rsa2048 => Der.sequence [Der.oid [1, 2, 840, 113549, 1, 1, 11], Der.null]

def forNames (names : List RequestedName) (k : KeyPair) : Except RequestError SigningRequest := do
  let info := (← RequestInfo.make names k.publicInfo).toDer
  match k.signDer info with
  | .ok signature => return { info, algorithm := k.algorithm, signature }
  | .error _ => throw .signing

/-- The request for a certificate that covers identifiers, signed with a key. -/
def forIdentifiers (identifiers : List Identifier) (k : KeyPair) :
    Except RequestError SigningRequest := do
  forNames (← RequestInfo.requested identifiers) k

def toDer (r : SigningRequest) : Bytes :=
  Der.sequence [r.info, signatureAlgorithm r.algorithm, Der.bitString r.signature]

def verify (r : SigningRequest) (k : KeyPair) : Bool := k.verifyDer r.info r.signature

/-- The kind of key whose signatures are named so. -/
def algorithm? (i : Der.Item) : Option KeyAlgorithm :=
  [KeyAlgorithm.ecdsaP256, .rsa2048].find? fun alg =>
    signatureAlgorithm alg == Der.encode i.tag i.content

def ofDer? (b : Bytes) : Option SigningRequest := do
  let (i, rest) ← Der.next? b
  match ← i.sequence? with
  | [info, algorithm, signature] =>
    if rest = [] then
      return {
        info := Der.encode info.tag info.content
        algorithm := ← algorithm? algorithm
        signature := ← signature.bitString? }
    else none
  | _ => none

end SigningRequest

end Acme
