import Acme.Account
import Acme.Proofs.Json.Pretty
import Acme.Proofs.Json.Stability
import Acme.Proofs.Key.Serialization
import Acme.Proofs.Storage.Calls

/-!
# Accounts survive being saved

An account whose key can be written is saved under a key and restored under any key that means the same
path, and is the same account, whatever else the storage holds (`restore_save`). Each layer is read as it
was written: the lines of the record, the base64 of the key, the tag of its algorithm, and the octets of
the key. Of an account whose key cannot be written nothing is stored.
-/

namespace Acme

/-- The tag that is stored stands for the algorithm that it was made from. -/
theorem KeyAlgorithm.ofText_tag (alg : KeyAlgorithm) : ofText alg.tag = .ok alg := by
  cases alg <;> rfl

/-! ### Records -/

namespace AccountRecord

theorem fits_strings {room : Nat} (h : 0 < room) (ss : List String) :
    Json.Fits room (Json.strings ss) := by
  refine ⟨h, ?_⟩
  induction ss with
  | nil => trivial
  | cons s ss ih => exact ⟨trivial, ih⟩

theorem fits_toJson (r : AccountRecord) : Json.Fits 2 r.toJson := by
  simp [toJson, Json.Fits, Json.MembersFit, fits_strings]

theorem stable (r : AccountRecord) : Json.Stable ofNode? toJson r where
  plain := r.fits_toJson.plain
  read_node := by
    obtain ⟨found, hfound, -, hfind⟩ :=
      Json.Node.exists_record?_node ["ID", "Contact", "Orders", "PrivateKey", "KeyType"]
        r.toJson.members (by simp [toJson, Json.members])
    rw [show Json.object r.toJson.members = r.toJson from rfl] at hfound
    simp only [toJson, Json.members, Json.lookup_member] at hfind
    rw [ofNode?, hfound, Option.bind_eq_bind, Option.bind_some,
      (Json.stable_text r.id).required (hfind "ID" (by simp)),
      (Json.stable_strings r.contact).withDefault (hfind "Contact" (by simp)),
      (Json.stable_strings r.orders).withDefault (hfind "Orders" (by simp)),
      (Json.stable_text r.privateKey).required (hfind "PrivateKey" (by simp)),
      (Json.stable_text r.keyType).required (hfind "KeyType" (by simp))]
    rfl
  ne_null := nofun

/-- The lines of a record are read as the record. -/
theorem ofBytes?_prettyText (r : AccountRecord) :
    ofBytes? (Bytes.ofText r.toJson.prettyText) = some r := by
  rw [ofBytes?, Json.Node.read_prettyText r.toJson r.fits_toJson, Option.bind_some,
    r.stable.read_node]

end AccountRecord

/-! ### Accounts -/

namespace Account

/-- An account that is the same as another. Only what a block around the key looks like is not told
by the key's own octets. -/
structure Same (a b : Account) : Prop where
  id : b.id = a.id
  contact : b.contact = a.contact
  orders : b.orders = a.orders
  signer : a.signer.Same b.signer
  settled : b.signer = a.signer.settled

variable {a : Account} {r : AccountRecord} {der : Bytes}

theorem Same.eq {b : Account} (h : a.Same b) (hsigner : a.signer.settled = a.signer) : b = a := by
  obtain ⟨id, contact, signer, orders⟩ := b
  obtain ⟨rfl, rfl, rfl, -, rfl⟩ := h
  rw [hsigner]

theorem toRecord_of_toDer (h : a.signer.toDer = .ok der) :
    ∃ r, a.toRecord = .ok r ∧ r.id = a.id ∧ r.contact = a.contact ∧ r.orders = a.orders
      ∧ r.privateKey = Base64.toStandard der ∧ r.keyType = a.signer.algorithm.tag := by
  rw [toRecord, h]
  exact ⟨_, rfl, rfl, rfl, rfl, rfl, rfl⟩

/-- The record of an account describes the account. -/
theorem exists_ofRecord_toRecord (h : a.signer.toDer = .ok der) (hder : der.length < Bytes.memoryLimit) :
    ∃ r b, a.toRecord = .ok r ∧ ofRecord r = .ok b ∧ a.Same b := by
  have hread := KeyPair.ofDer_toDer h hder
  obtain ⟨r, hr, hid, hcontact, horders, hprivate, htype⟩ := toRecord_of_toDer h
  refine ⟨r, { a with signer := a.signer.settled }, hr, ?_,
    ⟨rfl, rfl, rfl, a.signer.same_settled, rfl⟩⟩
  simp only [ofRecord, hid, hcontact, horders, hprivate, htype, KeyAlgorithm.ofText_tag,
    Base64.ofStandard_toStandard, Stateful.mapError_ok, bind, Except.bind, hread, pure, Except.pure]

theorem save_apply {key : String} {path : Storage.Path} (h : Storage.Path.ofKey key = .ok path)
    (hr : a.toRecord = .ok r) (s : MemoryStore) :
    a.save key s = (.ok (), ⟨s.files.insert path (Bytes.ofText r.toJson.prettyText)⟩) := by
  have hrecord : (ExceptT.mk (pure a.toRecord) : ExceptT AccountError (StateM MemoryStore) _) s
      = (.ok r, s) := by
    rw [hr]
    rfl
  rw [save, Stateful.bind_ok hrecord, Stateful.adapt_apply, MemoryStore.write_apply s h]
  rfl

theorem save_error {e : KeyError} (h : a.signer.toDer = .error e) (key : String) (s : MemoryStore) :
    a.toRecord = .error (.key e) ∧ a.save key s = (.error (.key e), s) := by
  have hr : a.toRecord = .error (.key e) := by
    rw [toRecord, h]
    rfl
  refine ⟨hr, ?_⟩
  have hrecord : (ExceptT.mk (pure a.toRecord) : ExceptT AccountError (StateM MemoryStore) _) s
      = (.error (.key e), s) := by
    rw [hr]
    rfl
  rw [save, Stateful.bind_error hrecord]

theorem restore_apply {key : String} {path : Storage.Path} (h : Storage.Path.ofKey key = .ok path)
    {s : MemoryStore} {data : Bytes} (hfile : s.files.get? path = some data)
    (hr : AccountRecord.ofBytes? data = some r) : restore key s = (ofRecord r, s) := by
  have hread : ((Storage.read key : Storing MemoryStore Bytes).adapt AccountError.storage) s
      = (.ok data, s) := by
    rw [Stateful.adapt_apply, MemoryStore.read_apply s h hfile]
    rfl
  rw [restore, Stateful.bind_ok hread, hr]
  exact Stateful.mk_pure_apply s _

/-- An account whose key can be written is saved; it can be restored under any key that means the same
path, and is the same account, which its record describes; it is equal unless its key came in a block of
its own form. All files at other paths are as before. Of an account whose key cannot be written there is no
record, and nothing is stored. -/
theorem restore_save (a : Account) (s : MemoryStore) {key key' : String}
    {path : Storage.Path} (hkey : Storage.Path.ofKey key = .ok path)
    (hkey' : Storage.Path.ofKey key' = .ok path) :
    (a.signer.Writable → ∃ der, a.signer.toDer = .ok der ∧ (der.length < Bytes.memoryLimit →
      ∃ r t b, a.toRecord = .ok r ∧ a.save key s = (.ok (), t) ∧ restore key' t = (.ok b, t)
        ∧ ofRecord r = .ok b ∧ a.Same b ∧ (a.signer.settled = a.signer → b = a)
        ∧ ∀ other ≠ path, t.files.get? other = s.files.get? other))
    ∧ (¬ a.signer.Writable →
      a.toRecord = .error (.key .unwritable) ∧ a.save key s = (.error (.key .unwritable), s)) := by
  constructor
  · intro hwritable
    obtain ⟨der, hder⟩ := a.signer.writes_toDer.ok hwritable
    refine ⟨der, hder, fun hroom => ?_⟩
    obtain ⟨r, b, hr, hrecord, hsame⟩ := exists_ofRecord_toRecord hder hroom
    let data := Bytes.ofText r.toJson.prettyText
    let t : MemoryStore := ⟨s.files.insert path data⟩
    have hread : AccountRecord.ofBytes? data = some r := AccountRecord.ofBytes?_prettyText _
    -- the keys are two names of one path, so that one entry is changed
    have hfiles (other : Storage.Path) :
        t.files.get? other = if path = other then some data else s.files.get? other :=
      Table.get?_insert s.files path other data
    have hfile : t.files.get? path = some data := by rw [hfiles, if_pos rfl]
    refine ⟨r, t, b, hr, save_apply hkey hr s, ?_, hrecord, hsame, hsame.eq, ?_⟩
    · rw [restore_apply hkey' hfile hread, hrecord]
    · intro other hother
      rw [hfiles, if_neg (Ne.symm hother)]
  · intro hwritable
    exact save_error (a.signer.writes_toDer.error hwritable) key s

/-- A storage that holds another account's file. -/
def shared : MemoryStore := ⟨Table.empty.insert ["accounts", "b.json"] [123, 125]⟩

/-- An account with quotation marks, line breaks and letters beyond ASCII in its texts. -/
def quaint : Account where
  id := "https://ca/acct/\"ü\"\n"
  contact := ["mailto:å@example.com", ""]
  signer := .ec .unit
  orders := ["https://ca/order/\\"]

theorem quaint_restored :
    quaint.signer.Writable ∧ ∃ r t b, quaint.toRecord = .ok r
      ∧ quaint.save "accounts/a.json" shared = (.ok (), t)
      ∧ restore "./accounts//b/../a.json" t = (.ok b, t) ∧ ofRecord r = .ok b
      ∧ b = quaint ∧ t.files.get? ["accounts", "b.json"] = some [123, 125] := by
  have hwritable : quaint.signer.Writable := ⟨by decide +kernel, nofun⟩
  have hkey : Storage.Path.ofKey "accounts/a.json" = .ok ["accounts", "a.json"] := by decide
  have hkey' : Storage.Path.ofKey "./accounts//b/../a.json" = .ok ["accounts", "a.json"] := by decide
  obtain ⟨der, hder, hrestored⟩ := (restore_save quaint shared hkey hkey').1 hwritable
  have hroom : der.length < Bytes.memoryLimit := by
    have hlength : quaint.signer.toDer.toOption.all (·.length < Bytes.memoryLimit) := by decide +kernel
    rw [hder] at hlength
    exact of_decide_eq_true hlength
  obtain ⟨r, t, b, hr, hsave, hrestore, hrecord, -, hequal, hothers⟩ := hrestored hroom
  refine ⟨hwritable, r, t, b, hr, hsave, hrestore, hrecord, hequal rfl, ?_⟩
  rw [hothers ["accounts", "b.json"] (by decide)]
  decide

/-- An account may have a key that has been read and cannot be written. -/
def unsaved : Account := new [] (.ec .oversized)

theorem unsaved_refused :
    KeyPair.ofDer .ecdsaP256 EcKey.oversizedBytes = .ok unsaved.signer
      ∧ unsaved.save "a" shared = (.error (.key .unwritable), shared) := by
  have hlarge : ¬ unsaved.signer.Writable := fun h => absurd h.1 (Nat.lt_irrefl _)
  exact ⟨EcKey.read_oversized, (save_error (unsaved.signer.writes_toDer.error hlarge) "a" shared).2⟩

end Account

end Acme
