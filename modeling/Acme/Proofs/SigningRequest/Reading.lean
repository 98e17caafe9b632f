import Acme.Proofs.Der
import Acme.SigningRequest

/-!
# Signing requests are read as they were written

A request is values within values: two layers around what is signed, and seven around each name. Each
reader gets back what its writer wrote, if the whole is not too long for its length to be written: then
no part of it is. So the part that is signed is read as it was made (`RequestInfo.ofDer?_toDer`), and so
is the request (`SigningRequest.ofDer?_toDer`).
-/

namespace Acme

open Der

/-! ### One value within another -/

namespace Der

theorem set?_bytes {i : Item} (h : i.bytes.length < Bytes.capacity 127) :
    RequestInfo.set? ⟨Tag.set, i.bytes⟩ = some [i] := by
  simp [RequestInfo.set?, Item.as?, items?_one h]

theorem sequence?_bytes {i : Item} (h : i.bytes.length < Bytes.capacity 127) :
    (⟨Tag.sequence, i.bytes⟩ : Item).sequence? = some [i] := by
  simp [Item.sequence?, Item.as?, items?_one h]

theorem bytes_sequence (is : List Item) :
    (⟨Tag.sequence, is.flatMap Item.bytes⟩ : Item).bytes = Der.sequence (is.map Item.bytes) := by
  rw [Item.bytes, List.flatMap_def, Der.sequence]

/-- A sequence is longer than each of its values. -/
theorem length_lt_sequence {b : Bytes} {values : List Bytes} (h : b ∈ values) :
    b.length < (Der.sequence values).length := by
  have hcontent : values.flatten.length < (Der.sequence values).length :=
    Item.length_content_lt ⟨Tag.sequence, values.flatten⟩
  exact Nat.lt_of_le_of_lt (List.sublist_flatten_of_mem h).length_le hcontent

/-- A part of what has room has room. -/
theorem room_of_mem {i : Item} {is : List Item} {length : Nat} (h : (is.flatMap Item.bytes).length < length)
    (hmem : i ∈ is) : i.content.length < length :=
  Nat.lt_trans (length_content_lt_of_mem hmem) h

/-- A value alone is read off an octet string. -/
theorem next?_bytes {i : Item} (h : i.content.length < Bytes.capacity 127) :
    next? i.bytes = some (i, []) := by
  rw [← List.append_nil i.bytes]
  exact next?_encode_append i.tag h []

end Der

namespace RequestInfo

/-! ### The values of a request -/

/-- The value of a name. -/
def nameItem : AlternativeName → Item
  | .dns name => ⟨Tag.context 2, name⟩
  | .ip octets => ⟨Tag.context 7, octets⟩

/-- The value of the name in a subject. -/
def commonNameItem (name : Bytes) : Item :=
  ⟨Tag.sequence, [⟨Tag.oid, oidContent commonName⟩, ⟨Tag.utf8String, name⟩].flatMap Item.bytes⟩

/-- The names in a subject: at most one, in a set of its own. -/
def subjectItems (subject : Option Bytes) : List Item :=
  subject.toList.map fun name => ⟨Tag.set, (commonNameItem name).bytes⟩

def subjectItem (subject : Option Bytes) : Item :=
  ⟨Tag.sequence, (subjectItems subject).flatMap Item.bytes⟩

/-- The value of all names. -/
def namesItem (names : List AlternativeName) : Item :=
  ⟨Tag.sequence, (names.map nameItem).flatMap Item.bytes⟩

/-- The value of the extension for names. -/
def extensionItem (names : List AlternativeName) : Item :=
  ⟨Tag.sequence, [⟨Tag.oid, oidContent alternativeNames⟩,
    ⟨Tag.octetString, (namesItem names).bytes⟩].flatMap Item.bytes⟩

def extensionsItem (names : List AlternativeName) : Item :=
  ⟨Tag.sequence, (extensionItem names).bytes⟩

/-- The value of the attribute that asks for extensions. -/
def attributeItem (names : List AlternativeName) : Item :=
  ⟨Tag.sequence, [⟨Tag.oid, oidContent extensionRequest⟩,
    ⟨Tag.set, (extensionsItem names).bytes⟩].flatMap Item.bytes⟩

def attributesItem (names : List AlternativeName) : Item :=
  ⟨Tag.contextOuter 0, (attributeItem names).bytes⟩

/-- The values of a request for a public key, which is a value by itself. -/
def items (r : RequestInfo) (key : Item) : List Item :=
  [⟨Tag.integer, intContent 0⟩, subjectItem r.subject, key, attributesItem r.names]

/-- The value of a request. -/
def item (r : RequestInfo) (key : Item) : Item := ⟨Tag.sequence, (r.items key).flatMap Item.bytes⟩

theorem bytes_subjectItem (subject : Option Bytes) :
    (subjectItem subject).bytes = subjectDer subject := by
  have hset (name : Bytes) : (⟨Tag.set, (commonNameItem name).bytes⟩ : Item).bytes
      = set [Der.sequence [Der.oid commonName, Der.encode Der.Tag.utf8String name]] := by
    rw [set, List.flatten_singleton, commonNameItem, bytes_sequence]
    rfl
  rw [subjectItem, bytes_sequence, subjectDer]
  cases subject with
  | none => rfl
  | some name => exact congrArg (fun b => Der.sequence [b]) (hset name)

theorem bytes_namesItem (names : List AlternativeName) :
    (namesItem names).bytes = Der.sequence (names.map AlternativeName.toDer) := by
  have hname : Item.bytes ∘ nameItem = AlternativeName.toDer := by
    funext name
    cases name <;> rfl
  rw [namesItem, bytes_sequence, List.map_map, hname]

theorem bytes_attributesItem (names : List AlternativeName) :
    (attributesItem names).bytes = Der.encode (Der.Tag.contextOuter 0)
      (Der.sequence [Der.oid extensionRequest, set [Der.sequence [extensionDer names]]]) := by
  have hextension : (extensionItem names).bytes = extensionDer names := by
    rw [extensionItem, bytes_sequence, extensionDer, ← bytes_namesItem]
    rfl
  have hextensions : (extensionsItem names).bytes = Der.sequence [extensionDer names] := by
    rw [← hextension, Der.sequence, List.flatten_singleton]
    rfl
  have hset : (⟨Tag.set, (extensionsItem names).bytes⟩ : Item).bytes
      = set [Der.sequence [extensionDer names]] := by
    rw [set, List.flatten_singleton, ← hextensions]
    rfl
  rw [← hset]
  show Der.encode _ (attributeItem names).bytes = _
  rw [attributeItem, bytes_sequence]
  rfl

theorem bytes_item {r : RequestInfo} {key : Item} (h : r.publicInfo = key.bytes) :
    (r.item key).bytes = r.toDer := by
  rw [item, bytes_sequence, toDer, ← bytes_subjectItem, ← bytes_attributesItem, h]
  rfl

/-! ### Reading -/

section

variable {names : List AlternativeName}

theorem ofItem?_nameItem (name : AlternativeName) : AlternativeName.ofItem? (nameItem name) = some name := by
  cases name <;> rfl

theorem extension?_extensionItem
    (h : (extensionItem names).content.length < Bytes.capacity 127) :
    extension? (extensionItem names) = some names := by
  have hvalue : (⟨Tag.octetString, (namesItem names).bytes⟩ : Item).content.length < Bytes.capacity 127 :=
    room_of_mem h (by simp)
  have hnames := Nat.lt_trans (namesItem names).length_content_lt hvalue
  have hall : (names.map nameItem).mapM AlternativeName.ofItem? = some names := by
    rw [mapM_eq_some_iff, List.map_map]
    exact List.map_congr_left fun name _ => ofItem?_nameItem name
  have hoctets : (⟨Tag.octetString, (namesItem names).bytes⟩ : Item).octetString?
      = some (namesItem names).bytes := rfl
  have hsequence : (namesItem names).sequence? = some (names.map nameItem) := sequence?_flatMap hnames
  rw [extension?, extensionItem, sequence?_flatMap h]
  simp [hoctets, next?_bytes hnames, Item.isOid, hsequence, hall]

theorem attributes?_attributesItem
    (h : (attributesItem names).content.length < Bytes.capacity 127) :
    attributes? (attributesItem names) = some names := by
  have hattribute := Nat.lt_trans (attributeItem names).length_content_lt h
  have hset : (⟨Tag.set, (extensionsItem names).bytes⟩ : Item).content.length < Bytes.capacity 127 :=
    room_of_mem hattribute (by simp)
  have hextensions := Nat.lt_trans (extensionsItem names).length_content_lt hset
  have hextension := Nat.lt_trans (extensionItem names).length_content_lt hextensions
  have hpair : (attributeItem names).sequence? = some [_, _] := sequence?_flatMap hattribute
  have hone : (extensionsItem names).sequence? = some [_] := sequence?_bytes hextensions
  rw [attributes?, attributesItem, explicit?_bytes 0 h]
  simp [hpair, set?_bytes hset, hone, Item.isOid, extension?_extensionItem hextension]

end

theorem subject?_subjectItem {subject : Option Bytes}
    (h : (subjectItem subject).content.length < Bytes.capacity 127) :
    subject? (subjectItem subject) = some subject := by
  have hsubject : (subjectItem subject).sequence? = some (subjectItems subject) := sequence?_flatMap h
  cases subject with
  | none =>
    rw [subject?, hsubject]
    rfl
  | some name =>
    have hset : (⟨Tag.set, (commonNameItem name).bytes⟩ : Item).content.length < Bytes.capacity 127 :=
      room_of_mem h (by simp [subjectItems])
    have hname := Nat.lt_trans (commonNameItem name).length_content_lt hset
    have hpair : (commonNameItem name).sequence? = some [_, _] := sequence?_flatMap hname
    have htext : (⟨Tag.utf8String, name⟩ : Item).as? Tag.utf8String = some name := rfl
    rw [subject?, hsubject]
    simp [subjectItems, set?_bytes hset, hpair, Item.isOid, htext]

/-- What is signed is read as it was made. -/
theorem ofDer?_toDer {r : RequestInfo} {key : Item} (hkey : r.publicInfo = key.bytes)
    (h : r.toDer.length < Bytes.capacity 127) : ofDer? r.toDer = some r := by
  rw [← bytes_item hkey] at h ⊢
  have hitems := Nat.lt_trans (r.item key).length_content_lt h
  have hsequence : (r.item key).sequence? = some (r.items key) := sequence?_flatMap hitems
  have hsubject : (subjectItem r.subject).content.length < Bytes.capacity 127 :=
    room_of_mem hitems (by simp [items])
  have hnames : (attributesItem r.names).content.length < Bytes.capacity 127 :=
    room_of_mem hitems (by simp [items])
  have hkey' : Der.encode key.tag key.content = r.publicInfo := hkey.symm
  rw [ofDer?, next?_bytes hitems]
  simp [hsequence, items, int?_intContent, subject?_subjectItem hsubject,
    attributes?_attributesItem hnames, hkey']

end RequestInfo

/-! ### Signed requests -/

namespace SigningRequest

/-- The value that names the kind of a signature. -/
def algorithmItem : KeyAlgorithm → Item
  | .ecdsaP256 => ⟨Tag.sequence, [Der.oid [1, 2, 840, 10045, 4, 3, 2]].flatten⟩
  | .rsa2048 => ⟨Tag.sequence, [Der.oid [1, 2, 840, 113549, 1, 1, 11], Der.null].flatten⟩

theorem bytes_algorithmItem (alg : KeyAlgorithm) :
    (algorithmItem alg).bytes = signatureAlgorithm alg := by
  cases alg <;> rfl

theorem algorithm?_algorithmItem (alg : KeyAlgorithm) : algorithm? (algorithmItem alg) = some alg := by
  cases alg <;> decide +kernel

/-- The values of a request. -/
def items (r : SigningRequest) (info : Item) : List Item :=
  [info, algorithmItem r.algorithm, ⟨Tag.bitString, 0 :: r.signature⟩]

/-- A request is read as it was made, if what is signed is a value. -/
theorem ofDer?_toDer {r : SigningRequest} {info : Item} (hinfo : r.info = info.bytes)
    (h : r.toDer.length < Bytes.capacity 127) : ofDer? r.toDer = some r := by
  let i : Item := ⟨Tag.sequence, (r.items info).flatMap Item.bytes⟩
  have hbytes : i.bytes = r.toDer := by
    rw [bytes_sequence, toDer, hinfo, ← bytes_algorithmItem]
    rfl
  rw [← hbytes] at h ⊢
  have hitems := Nat.lt_trans i.length_content_lt h
  have hsequence : i.sequence? = some (r.items info) := sequence?_flatMap hitems
  have hsignature : (⟨Tag.bitString, 0 :: r.signature⟩ : Item).bitString? = some r.signature := rfl
  have hinfo' : Der.encode info.tag info.content = r.info := hinfo.symm
  rw [ofDer?, next?_bytes hitems]
  simp [hsequence, items, algorithm?_algorithmItem, hsignature, hinfo']

end SigningRequest

end Acme
