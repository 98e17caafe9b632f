import Acme.Certificate.Time
import Acme.Pem

/-!
# Certificates

What a server issues: a chain of certificates (RFC 5280), written as text blocks one after another.
The first is the one that was asked for.

A certificate is kept as its octets: what it certifies as it was read, and the signature written
anew. When it is read its structure is checked, but no name, key or signature in it; of its contents
only the end of its validity is used.
-/

namespace Acme

inductive CertificateError
  | malformed
  /-- The text has no certificate in it. -/
  | emptyChain
  deriving DecidableEq, Repr

/-- The text of an error, if it has one of its own. -/
def CertificateError.message? : CertificateError → Option String
  | malformed => none
  | emptyChain => some "Certificate chain is empty"

structure Certificate where
  toDer : Bytes
  /-- The end of its validity. -/
  notAfter : Der.Item
  deriving DecidableEq, Repr

namespace Certificate

/-! ### The parts -/

/-- Whether octets are an object identifier: the last number is complete, and none of them begins
with a zero digit. -/
def isOidContent (b : Bytes) : Bool :=
  b.getLast?.any (· < 128) && ((0 :: b).zip b).all fun (before, x) => !(x == 128 && before < 128)

/-- Whether a value is an object identifier. -/
def isOid (i : Der.Item) : Bool := (i.as? Der.Tag.oid).any isOidContent

/-- Whether octets are a string of bits; the last octet may be filled up. -/
def isBits : Bytes → Bool
  | [] => false
  | unused :: _ => unused < 8

/-- A string of bits whose last octet is filled up with zeros. -/
def filledUp : Bytes → Bytes
  | unused :: b =>
    match b.getLast? with
    | some last => unused :: b.dropLast ++ [last >>> unused <<< unused]
    | none => [0]
  | [] => []

/-- Whether a value may be given to an algorithm. -/
def isParameter (i : Der.Item) : Bool :=
  if i.tag = Der.Tag.null then i.content.isEmpty
  else if i.tag = Der.Tag.oid then isOid i
  else if i.tag = Der.Tag.integer then i.int?.isSome
  else true

/-- Whether a value names an algorithm. -/
def isAlgorithm (i : Der.Item) : Bool :=
  match i.sequence? with
  | some [type] => isOid type
  | some [type, parameter] => isOid type && isParameter parameter
  | _ => false

/-- Whether a value may stand in a name: one of several kinds of text. -/
def isNameValue (i : Der.Item) : Bool :=
  (i.string? Der.Tag.utf8String).any (fun b => (Bytes.text? b).isSome)
    || (i.string? 0x1e).any (·.length % 2 == 0)
    || (i.string? 0x1c).any (·.length % 4 == 0)
    || (i.string? Der.Tag.bitString).any isBits
    || i.tag == Der.Tag.sequence
    || [0x12, 0x13, 0x14, 0x16].any fun tag => (i.string? tag).isSome

/-- Whether a value is a part of a name. -/
def isNamePart (i : Der.Item) : Bool :=
  match i.sequence? with
  | some [type, value] => isOid type && isNameValue value
  | _ => false

/-- Whether a value is the name of an issuer or a subject. -/
def isName (i : Der.Item) : Bool :=
  i.sequence?.any fun sets => sets.all fun set =>
    ((set.as? Der.Tag.set).bind Der.items?).any (·.all isNamePart)

/-- Whether a value is a public key. -/
def isPublicInfo (i : Der.Item) : Bool :=
  match i.sequence? with
  | some [algorithm, key] => isAlgorithm algorithm && (key.string? Der.Tag.bitString).any isBits
  | _ => false

def isExtension (i : Der.Item) : Bool :=
  match i.sequence? with
  | some [type, value] => isOid type && value.octetString?.isSome
  | some [type, critical, value] =>
    isOid type && (critical.as? Der.Tag.boolean).any (·.length == 1) && value.octetString?.isSome
  | _ => false

/-- Whether a value under a tag is a version. -/
def isVersion (i : Der.Item) : Bool := (i.explicit? 0).any (·.int?.isSome)

/-- Whether a value under a tag is a sequence of extensions. -/
def isExtensions (i : Der.Item) : Bool :=
  ((i.explicit? 3).bind Der.Item.sequence?).any (·.all isExtension)

/-- What follows a value that may be missing and has to fit if it is not. -/
def afterOptional? (tag : Der.Tag) (fits : Der.Item → Bool) :
    List Der.Item → Option (List Der.Item)
  | i :: rest => if i.tag = tag then (if fits i then some rest else none) else some (i :: rest)
  | [] => some []

/-- What follows a string of bits that may be missing, as a whole or in parts. -/
def afterBits? (n : UInt8) (is : List Der.Item) : Option (List Der.Item) := do
  let fits (i : Der.Item) : Bool := (i.string? (Der.Tag.context n)).any isBits
  let rest ← afterOptional? (Der.Tag.context n) fits is
  if rest.length < is.length then some rest else afterOptional? (Der.Tag.contextOuter n) fits is

/-! ### The whole -/

/-- The end of the validity of what a certificate certifies. -/
def notAfter? (info : Der.Item) : Option Der.Item := do
  match ← afterOptional? (Der.Tag.contextOuter 0) isVersion (← info.sequence?) with
  | serial :: algorithm :: issuer :: validity :: subject :: publicKey :: rest =>
    let rest ← afterBits? 1 rest
    let rest ← afterBits? 2 rest
    let rest ← afterOptional? (Der.Tag.contextOuter 3) isExtensions rest
    match ← (← validity.sequence?).mapM Time.item? with
    | [_, notAfter] =>
      if rest.isEmpty && serial.int?.isSome && isAlgorithm algorithm && isName issuer
          && isName subject && isPublicInfo publicKey
      then some notAfter else none
    | _ => none
  | _ => none

/-- The certificate at the front of an octet string. -/
def ofDer? (b : Bytes) : Option Certificate := do
  let (whole, _) ← Der.next? b
  let b ← whole.as? Der.Tag.sequence
  let (info, rest) ← Der.next? b
  match ← Der.items? rest with
  | [algorithm, signature] =>
    let bits ← signature.string? Der.Tag.bitString
    if isAlgorithm algorithm && isBits bits then
      return {
        toDer := Der.sequence [b.take (b.length - rest.length),
          Der.encode algorithm.tag algorithm.content, Der.encode Der.Tag.bitString (filledUp bits)]
        notAfter := ← notAfter? info }
    else none
  | _ => none

/-- The end of the validity of a certificate. -/
def expiry (c : Certificate) : Except CertificateError Timestamp :=
  match Time.ofItem? c.notAfter with
  | some t => .ok t
  | none => .error .malformed

/-- The labels of text blocks with certificates in them. -/
def labels : List Bytes := ["CERTIFICATE", "X509 CERTIFICATE"].map Bytes.ofText

/-- The certificates in text blocks. Blocks with other labels are passed over, but none may be out
of order. -/
def ofBlocks : List (Option Pem.Block) → Except CertificateError (List Certificate)
  | [] => .ok []
  | none :: _ => .error .malformed
  | some block :: rest =>
    if labels.contains block.label then
      match if block.header.isEmpty then ofDer? block.content else none with
      | some c => (c :: ·) <$> ofBlocks rest
      | none => .error .malformed
    else ofBlocks rest

end Certificate

/-- A certificate with those that certify its issuer. -/
structure CertificateChain where
  /-- The text as the server sent it. -/
  text : String
  leaf : Certificate
  issuers : List Certificate
  deriving DecidableEq, Repr

namespace CertificateChain

/-- The certificates, the one that was asked for in front. -/
def certificates (c : CertificateChain) : List Certificate := c.leaf :: c.issuers

def ofText (s : String) : Except CertificateError CertificateChain := do
  match ← Certificate.ofBlocks (Pem.blocks (Bytes.ofText s)) with
  | [] => throw .emptyChain
  | leaf :: issuers => return { text := s, leaf, issuers }

end CertificateChain

end Acme
