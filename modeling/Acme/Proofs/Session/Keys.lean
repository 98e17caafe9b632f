import Acme.Proofs.Session.Changes
import Mathlib.Data.List.Induction

/-!
# Which key signs

The key of a registered account stands in two places: the account says with which key it signs, and
the table of keys has it under the account's URL. Changing keys, adding accounts and adding keys write
to these places in different ways. Over a whole session both are the key that the account was added
with, or the last one that it has been given since (`signer_is_lastKey`).
-/

namespace Acme

open List

variable {β : Type}

/-! ### The history of a session -/

/-- The account that a call adds. -/
def Call.added? : Call β → Option Account
  | addAccount a _ => some a
  | _ => none

/-- The name under which a call adds a key. -/
def Call.keyName? : Call β → Option String
  | addKey name _ => some name
  | _ => none

/-- The new key that a call brings if it succeeds, with the place of the account that gets it: the
active one. -/
def Call.renewed? (t : AccountTable) : Call β → (succeeds : Bool) → Option (Nat × KeyPair)
  | rollover k, true => t.active.map (·, k)
  | _, _ => none

namespace Turn

def added? : Turn → Option Account
  | call c _ => c.added?
  | server _ _ => none

def keyName? : Turn → Option String
  | call c _ => c.keyName?
  | server _ _ => none

def renewed? (s : Session) : Turn → Option (Nat × KeyPair)
  | call c b => c.renewed? s.table (c.run b s).1.1.isOk
  | server _ _ => none

end Turn

namespace Session

/-- The new keys of a session, in their order. -/
def renewals (s : Session) : List Turn → List (Nat × KeyPair)
  | [] => []
  | turn :: turns => (turn.renewed? s).toList ++ (turn.run s).renewals turns

theorem renewals_concat (s : Session) (turns : List Turn) (turn : Turn) :
    s.renewals (turns ++ [turn]) = s.renewals turns ++ (turn.renewed? (s.play turns)).toList := by
  induction turns generalizing s with
  | nil => simp [renewals, play]
  | cons first turns ih =>
    rw [cons_append, renewals, renewals, ih, append_assoc]
    rfl

end Session

/-- The last key that the account at a place has been given, or else the first that it had. -/
def lastKey (place : Nat) (first : KeyPair) (renewed : List (Nat × KeyPair)) : KeyPair :=
  (((renewed.filter (·.1 = place)).map (·.2)).getLast?).getD first

section

variable {place : Nat} {first k : KeyPair} {renewed : List (Nat × KeyPair)}

theorem lastKey_concat (index : Nat) : lastKey place first (renewed ++ [(index, k)])
    = if index = place then k else lastKey place first renewed := by
  by_cases h : index = place <;> simp [lastKey, h]

theorem lastKey_eq_first (h : ∀ x ∈ renewed, x.1 ≠ place) : lastKey place first renewed = first := by
  have hnone : renewed.filter (·.1 = place) = [] := by simpa [filter_eq_nil_iff] using h
  rw [lastKey, hnone]
  rfl

end

/-! ### What one change does -/

namespace AccountTable

/-- A table of accounts that follows a history: every account that was added stands at its place with
its identifier and its last key, and the key of a registered account can be found under its
identifier. -/
structure Follows (t : AccountTable) (added : List Account) (renewed : List (Nat × KeyPair)) :
    Prop where
  placed : ∀ place, t.accounts[place]?.map (fun a => (a.id, a.signer))
    = added[place]?.map fun a => (a.id, lastKey place a.signer renewed)
  filed : ∀ a ∈ t.accounts, a.isRegistered → t.keys.get? a.id = some a.signer
  /-- Only accounts that have been added have been given keys. -/
  earlier : ∀ x ∈ renewed, x.1 < added.length

/-- No two registered accounts have the same identifier. -/
def Distinct (added : List Account) : Prop := ((added.filter (·.isRegistered)).map (·.id)).Nodup

namespace Change

def added? : Change → Option Account
  | added a _ => some a
  | _ => .none

def renewed? : Change → Option (Nat × KeyPair)
  | rekeyed index _ k => some (index, k)
  | _ => .none

/-- A new key is for the registered account at its place, and a key that is added by hand is for no
registered account. -/
def Fits (t : AccountTable) : Change → Prop
  | rekeyed index id _ => ∃ a, t.accounts[index]? = some a ∧ a.isRegistered ∧ a.id = id
  | keyAdded name _ => ∀ a ∈ t.accounts, a.isRegistered → a.id ≠ name
  | _ => True

end Change

variable {t : AccountTable} {added : List Account} {renewed : List (Nat × KeyPair)}

theorem Distinct.ne_of_place_ne (h : Distinct added) {i j : Nat} {a b : Account}
    (ha : added[i]? = some a) (hb : added[j]? = some b) (hij : i ≠ j) (hareg : a.isRegistered)
    (hbreg : b.isRegistered) : a.id ≠ b.id := by
  rw [Distinct, List.Nodup, pairwise_map, pairwise_filter] at h
  obtain ⟨hi, rfl⟩ := List.getElem?_eq_some_iff.mp ha
  obtain ⟨hj, rfl⟩ := List.getElem?_eq_some_iff.mp hb
  have hpairs := pairwise_iff_getElem.mp h
  rcases Nat.lt_or_gt_of_ne hij with hlt | hgt
  · exact hpairs i j hi hj hlt hareg hbreg
  · exact (hpairs j i hj hi hgt hbreg hareg).symm

theorem Distinct.of_append {before after : List Account} (h : Distinct (before ++ after)) :
    Distinct before :=
  h.sublist (((sublist_append_left _ _).filter _).map _)

namespace Follows

theorem empty : AccountTable.empty.Follows [] [] where
  placed := fun _ => rfl
  filed := by simp [AccountTable.empty]
  earlier := by simp

/-- An account of the table has been added with its identifier. -/
theorem exists_added (h : t.Follows added renewed) {place : Nat} {a : Account}
    (ha : t.accounts[place]? = some a) :
    ∃ b, added[place]? = some b ∧ b.id = a.id ∧ a.signer = lastKey place b.signer renewed := by
  have hplaced := h.placed place
  rw [ha] at hplaced
  obtain ⟨b, hb, hpair⟩ := Option.map_eq_some_iff.mp hplaced.symm
  obtain ⟨hid, hsigner⟩ := Prod.mk.inj hpair
  exact ⟨b, hb, hid, hsigner.symm⟩

theorem length_eq (h : t.Follows added renewed) : t.accounts.length = added.length := by
  have hbound (place : Nat) : t.accounts.length ≤ place ↔ added.length ≤ place := by
    have hnone := congrArg (· = none) (h.placed place)
    simpa using hnone
  have hleft := (hbound added.length).mpr (Nat.le_refl _)
  have hright := (hbound t.accounts.length).mp (Nat.le_refl _)
  omega

theorem id_ne (h : t.Follows added renewed) (hdistinct : Distinct added) {i j : Nat} {a b : Account}
    (ha : t.accounts[i]? = some a) (hb : t.accounts[j]? = some b) (hij : i ≠ j)
    (hareg : a.isRegistered) (hbreg : b.isRegistered) : a.id ≠ b.id := by
  obtain ⟨a', ha', hida, -⟩ := h.exists_added ha
  obtain ⟨b', hb', hidb, -⟩ := h.exists_added hb
  have hregistered {x y : Account} (hid : x.id = y.id) (hy : y.isRegistered) : x.isRegistered := by
    rw [Account.isRegistered, hid]
    exact hy
  rw [← hida, ← hidb]
  exact hdistinct.ne_of_place_ne ha' hb' hij (hregistered hida hareg) (hregistered hidb hbreg)

/-- Other things about an account may change. -/
theorem modify (h : t.Follows added renewed) (index : Nat) {change : Account → Account}
    (hid : ∀ a, (change a).id = a.id) (hsigner : ∀ a, (change a).signer = a.signer) :
    (t.modify index change).Follows added renewed := by
  -- at each place there is the same identifier with the same key
  have hget (place : Nat) : ((t.modify index change).accounts[place]?).map
      (fun a => (a.id, a.signer)) = t.accounts[place]?.map fun a => (a.id, a.signer) := by
    rw [AccountTable.modify, getElem?_modify]
    split
    · cases t.accounts[place]? <;> simp [hid, hsigner]
    · cases t.accounts[place]? <;> rfl
  refine ⟨fun place => (hget place).trans (h.placed place), ?_, h.earlier⟩
  intro a ha hregistered
  -- so an account that is registered now stands where one was registered before
  obtain ⟨place, hplace⟩ := mem_iff_getElem?.mp ha
  have hpair := hget place
  rw [hplace] at hpair
  obtain ⟨b, hb, heq⟩ := Option.map_eq_some_iff.mp hpair.symm
  obtain ⟨hid', hsigner'⟩ := Prod.mk.inj heq
  rw [← hid', ← hsigner']
  refine h.filed b (mem_of_getElem? hb) ?_
  rw [Account.isRegistered, hid']
  exact hregistered

theorem add (h : t.Follows added renewed) {a : Account} (activate : Bool)
    (hdistinct : Distinct (added ++ [a])) : (t.add a activate).Follows (added ++ [a]) renewed := by
  refine ⟨fun place => ?_, fun b hb hregistered => ?_, fun x hx => ?_⟩
  · rw [accounts_add]
    rcases Nat.lt_trichotomy place t.accounts.length with hlt | rfl | hgt
    · rw [getElem?_append_left hlt, getElem?_append_left (by rw [← h.length_eq]; exact hlt)]
      exact h.placed place
    · -- nothing has been given to the account that is new
      have hfirst : lastKey t.accounts.length a.signer renewed = a.signer :=
        lastKey_eq_first fun x hx => by
          have hearlier := h.earlier x hx
          rw [← h.length_eq] at hearlier
          exact Nat.ne_of_lt hearlier
      rw [getElem?_concat_length, h.length_eq, getElem?_concat_length, ← h.length_eq]
      simp [hfirst]
    · have hlength := h.length_eq
      rw [getElem?_eq_none (by simp; omega), getElem?_eq_none (by simp; omega)]
      rfl
  · rw [keys_add]
    rw [accounts_add] at hb
    rcases mem_append.mp hb with hb | hb
    · obtain ⟨place, hplace⟩ := mem_iff_getElem?.mp hb
      split
      · -- the key of the new account is filed under another name
        rename_i hareg
        obtain ⟨b', hb', hid, -⟩ := h.exists_added hplace
        have hlt : place < added.length := (List.getElem?_eq_some_iff.mp hb').1
        have hne := hdistinct.ne_of_place_ne (i := place) (j := added.length) (a := b') (b := a)
          (by rw [getElem?_append_left hlt]; exact hb') getElem?_concat_length (Nat.ne_of_lt hlt)
          (by rw [Account.isRegistered, hid]; exact hregistered) hareg
        rw [Table.get?_insert, if_neg fun heq => hne (hid.trans heq.symm)]
        exact h.filed b hb hregistered
      · exact h.filed b hb hregistered
    · obtain rfl : b = a := mem_singleton.mp hb
      rw [if_pos hregistered, Table.get?_insert, if_pos rfl]
  · have hearlier := h.earlier x hx
    rw [length_append]
    omega

theorem addKey (h : t.Follows added renewed) {name : String} (k : KeyPair)
    (hname : ∀ a ∈ t.accounts, a.isRegistered → a.id ≠ name) :
    (t.addKey name k).Follows added renewed where
  placed := h.placed
  filed := by
    intro a ha hregistered
    show (t.keys.insert name k).get? a.id = _
    rw [Table.get?_insert, if_neg fun heq => hname a ha hregistered heq.symm]
    exact h.filed a ha hregistered
  earlier := h.earlier

/-- A new key goes to its account and to the place where this is filed, and to no other. -/
theorem rekey (h : t.Follows added renewed) (hdistinct : Distinct added) {index : Nat} {a : Account}
    (ha : t.accounts[index]? = some a) (hregistered : a.isRegistered) (k : KeyPair) :
    ((t.addKey a.id k).modify index fun a => { a with signer := k }).Follows added
      (renewed ++ [(index, k)]) := by
  -- the new key is at one place, where there is an account already
  have hget (place : Nat) : (((t.addKey a.id k).modify index
      fun a => { a with signer := k }).accounts[place]?)
        = if index = place then some { a with signer := k } else t.accounts[place]? := by
    show (t.accounts.modify index _)[place]? = _
    rw [getElem?_modify]
    split
    · rename_i heq
      rw [← heq, ha]
      rfl
    · simp
  refine ⟨fun place => ?_, fun b hb hbreg => ?_, fun x hx => ?_⟩
  · rw [hget]
    split
    · rename_i heq
      obtain ⟨b, hb, hid, -⟩ := h.exists_added ha
      rw [← heq, hb]
      simp [lastKey_concat, hid]
    · rename_i hne
      rw [h.placed]
      simp [lastKey_concat, hne]
  · obtain ⟨place, hplace⟩ := mem_iff_getElem?.mp hb
    rw [hget] at hplace
    show (t.keys.insert a.id k).get? b.id = _
    rw [Table.get?_insert]
    split at hplace
    · obtain rfl : { a with signer := k } = b := Option.some.inj hplace
      exact if_pos rfl
    · rename_i hne
      -- another registered account has another identifier, and its key is filed under that
      rw [if_neg (h.id_ne hdistinct ha hplace hne hregistered hbreg)]
      exact h.filed b (mem_of_getElem? hplace) hbreg
  · rcases mem_append.mp hx with hx | hx
    · exact h.earlier x hx
    · obtain rfl : x = (index, k) := mem_singleton.mp hx
      rw [← h.length_eq]
      exact (List.getElem?_eq_some_iff.mp ha).1

/-- A table that has followed a history follows it further with every change that fits. -/
theorem apply (h : t.Follows added renewed) {c : Change} (hfits : c.Fits t)
    (hdistinct : Distinct (added ++ c.added?.toList)) :
    (c.apply t).Follows (added ++ c.added?.toList) (renewed ++ c.renewed?.toList) := by
  -- most changes neither add an account nor bring it a key
  have hsame {u : AccountTable} (hu : u.Follows added renewed) :
      u.Follows (added ++ []) (renewed ++ []) := by
    rwa [append_nil, append_nil]
  cases c with
  | added a activate =>
    show (t.add a activate).Follows (added ++ [a]) (renewed ++ [])
    rw [append_nil]
    exact h.add activate hdistinct
  | rekeyed index id k =>
    obtain ⟨a, ha, hregistered, rfl⟩ := hfits
    show Follows _ (added ++ []) (renewed ++ [(index, k)])
    rw [append_nil]
    exact h.rekey (append_nil added ▸ hdistinct) ha hregistered k
  | keyAdded name k => exact hsame (h.addKey k hfits)
  | none => exact hsame h
  | activated index => exact hsame ⟨h.placed, h.filed, h.earlier⟩
  | contacted index contact => exact hsame (h.modify index (fun _ => rfl) fun _ => rfl)
  | ordered id url =>
    refine hsame ?_
    show (t.recordOrder id url).Follows added renewed
    unfold recordOrder
    split
    · exact h.modify _ (fun _ => rfl) fun _ => rfl
    · exact h

end Follows

end AccountTable

/-! ### What a whole session does -/

namespace Call

open AccountTable (Change)

variable {t : AccountTable} {call : Call β} {succeeds : Bool} {c : Change}

/-- A call adds the account, and brings the key, that its change does; and the change fits if the call
adds no key under the name of a registered account. -/
theorem Makes.history (h : call.Makes t succeeds c)
    (hname : ∀ name, call.keyName? = some name → ∀ a ∈ t.accounts, a.isRegistered → a.id ≠ name) :
    c.added? = call.added? ∧ c.renewed? = call.renewed? t succeeds ∧ c.Fits t := by
  cases call with
  | addAccount a activate =>
    obtain rfl : c = .added a activate := h
    exact ⟨rfl, rfl, trivial⟩
  | addKey name k =>
    obtain rfl : c = .keyAdded name k := h
    exact ⟨rfl, rfl, hname name rfl⟩
  | createOrder =>
    rcases h with ⟨rfl, rfl⟩ | ⟨a, url, -, rfl⟩
    · exact ⟨rfl, rfl, trivial⟩
    · -- recording an order is no part of the history, whether the call succeeds or not
      cases succeeds <;> exact ⟨rfl, rfl, trivial⟩
  | rollover k =>
    cases succeeds with
    | false =>
      obtain rfl : c = .none := h
      exact ⟨rfl, rfl, trivial⟩
    | true =>
      obtain ⟨index, a, hactive, hindex, hregistered, rfl⟩ := h
      refine ⟨rfl, ?_, a, hindex, hregistered, rfl⟩
      rw [renewed?, hactive]
      rfl
  | setActiveAccount index =>
    cases succeeds with
    | false =>
      obtain rfl : c = .none := h
      exact ⟨rfl, rfl, trivial⟩
    | true =>
      obtain ⟨-, rfl⟩ := h
      exact ⟨rfl, rfl, trivial⟩
  | updateAccount contact =>
    cases succeeds with
    | false =>
      obtain rfl : c = .none := h
      exact ⟨rfl, rfl, trivial⟩
    | true =>
      obtain ⟨index, -, rfl⟩ := h
      exact ⟨rfl, rfl, trivial⟩
  | _ =>
    obtain rfl : c = .none := h
    exact ⟨rfl, rfl, trivial⟩

end Call

namespace Session

open AccountTable (Distinct Follows)
open Operation

variable {s : Session} {added : List Account} {renewed : List (Nat × KeyPair)}

/-- What one turn does. -/
theorem follows_run (h : s.table.Follows added renewed) (turn : Turn)
    (hdistinct : Distinct (added ++ turn.added?.toList))
    (hname : ∀ name, turn.keyName? = some name →
      ∀ a ∈ s.table.accounts, a.isRegistered → a.id ≠ name) :
    (turn.run s).table.Follows (added ++ turn.added?.toList)
      (renewed ++ (turn.renewed? s).toList) := by
  cases turn with
  | server route r =>
    show s.table.Follows (added ++ []) (renewed ++ [])
    rwa [append_nil, append_nil]
  | call call b =>
    obtain ⟨c, hmakes, htable⟩ := call.exists_change b s
    obtain ⟨hadded, hrenewed, hfits⟩ := hmakes.history hname
    show (call.run b s).2.table.Follows (added ++ call.added?.toList)
      (renewed ++ (call.renewed? s.table (call.run b s).1.1.isOk).toList)
    rw [htable, ← hadded, ← hrenewed]
    refine h.apply hfits ?_
    rw [hadded]
    exact hdistinct

/-- No call of a session adds a key under the name of an account that is registered by then. -/
def NamesApart (s : Session) (turns : List Turn) : Prop :=
  ∀ before turn after name, turns = before ++ turn :: after → turn.keyName? = some name →
    ∀ a ∈ (s.play before).table.accounts, a.isRegistered → a.id ≠ name

theorem NamesApart.of_append {s : Session} {before after : List Turn}
    (h : NamesApart s (before ++ after)) : NamesApart s before := by
  intro earlier turn later name hbefore
  refine h earlier turn (later ++ after) name ?_
  rw [hbefore, append_assoc, cons_append]

/-- What a whole session does, from the beginning, when there are no accounts. -/
theorem follows_play (config : Config) (connection : Connection) {turns : List Turn}
    (hdistinct : Distinct (turns.filterMap Turn.added?))
    (hnames : NamesApart ⟨config, connection, .empty⟩ turns) :
    (play ⟨config, connection, .empty⟩ turns).table.Follows (turns.filterMap Turn.added?)
      (renewals ⟨config, connection, .empty⟩ turns) := by
  -- on the last turn, as the history grows at its end
  induction turns using reverseRecOn with
  | nil => exact Follows.empty
  | append_singleton turns turn ih =>
    have hadded : (turns ++ [turn]).filterMap Turn.added?
        = turns.filterMap Turn.added? ++ turn.added?.toList := by
      rw [filterMap_append]
      cases hturn : turn.added? <;> simp [hturn]
    rw [hadded] at hdistinct ⊢
    rw [play_concat, renewals_concat]
    have hbefore := ih hdistinct.of_append hnames.of_append
    exact follows_run hbefore turn hdistinct (hnames turns turn [] · rfl)

/-- Over a session in which registered accounts are added with distinct identifiers, and no key is
added by hand under the name of one of them, the key that a registered account signs with is the key
that can be found under its identifier: the last new key that was agreed on while the account was
active, or else the one that it was added with. A turn that brings no new key to the account leaves
both as they are. -/
theorem signer_is_lastKey (config : Config) (connection : Connection) (turns : List Turn)
    (hdistinct : Distinct (turns.filterMap Turn.added?))
    (hnames : NamesApart ⟨config, connection, .empty⟩ turns) (before after : List Turn)
    (hturns : turns = before ++ after) :
    let s : Session := play ⟨config, connection, .empty⟩ before
    ∀ place a, s.table.accounts[place]? = some a → a.isRegistered →
      (∃ b, (before.filterMap Turn.added?)[place]? = some b ∧ b.id = a.id
        ∧ a.signer = lastKey place b.signer (renewals ⟨config, connection, .empty⟩ before))
      ∧ s.table.keys.get? a.id = some a.signer
      ∧ ∀ turn rest, after = turn :: rest → (∀ k, turn.renewed? s ≠ some (place, k)) →
          ∃ a', (turn.run s).table.accounts[place]? = some a' ∧ a'.id = a.id
            ∧ a'.signer = a.signer ∧ (turn.run s).table.keys.get? a.id = some a.signer := by
  intro s place a ha hregistered
  have hfollows (earlier later : List Turn) (h : turns = earlier ++ later) :
      (play ⟨config, connection, .empty⟩ earlier).table.Follows (earlier.filterMap Turn.added?)
        (renewals ⟨config, connection, .empty⟩ earlier) := by
    subst h
    rw [filterMap_append] at hdistinct
    exact follows_play config connection hdistinct.of_append hnames.of_append
  have hnow := hfollows before after hturns
  obtain ⟨b, hb, hid, hsigner⟩ := hnow.exists_added ha
  refine ⟨⟨b, hb, hid, hsigner⟩, hnow.filed a (mem_of_getElem? ha) hregistered, ?_⟩
  rintro turn rest rfl hkept
  have hnext := hfollows (before ++ [turn]) rest (hturns.trans (append_cons before turn rest))
  rw [play_concat, renewals_concat, filterMap_append] at hnext
  change (turn.run s).table.Follows _ _ at hnext
  -- the last key is still the same, and so is what has been added
  have hlast : lastKey place b.signer (renewals ⟨config, connection, .empty⟩ before
      ++ (turn.renewed? s).toList) = a.signer := by
    rw [hsigner]
    rcases hrenewed : turn.renewed? s with _ | ⟨index, k⟩
    · rw [Option.toList_none, append_nil]
    · have hother : index ≠ place := by
        rintro rfl
        exact hkept k hrenewed
      rw [Option.toList_some, lastKey_concat, if_neg hother]
  have hplaced := hnext.placed place
  rw [getElem?_append_left (List.getElem?_eq_some_iff.mp hb).1, hb] at hplaced
  obtain ⟨a', ha', hpair⟩ := Option.map_eq_some_iff.mp hplaced
  obtain ⟨hid', hsigner'⟩ := Prod.mk.inj hpair
  have hsame : a'.id = a.id ∧ a'.signer = a.signer := ⟨hid'.trans hid, hsigner'.trans hlast⟩
  have hfiled := hnext.filed a' (mem_of_getElem? ha') (by
    rw [Account.isRegistered, hsame.1]
    exact hregistered)
  rw [hsame.1, hsame.2] at hfiled
  exact ⟨a', ha', hsame.1, hsame.2, hfiled⟩

/-- The server's agreement is enough for a change of keys, if there is a registered account, the
directory has the URL, a nonce can be drawn, and both keys can be published and sign. -/
theorem rollover_agreed {s : Session} {k : KeyPair} {a : Account} {url n : String}
    {looked drawn : Connection} {r : Http.Response} {oldKey newKey : Jwk}
    (ha : s.table.active? = some a) (hid : a.id ≠ "")
    (holdKey : a.signer.jwk = .ok oldKey) (hnewKey : k.jwk = .ok newKey)
    (hresolve : Connection.resolve Endpoint.keyChange.name s.connection = (.ok (some url), looked))
    (hdraw : Connection.consume looked = (.ok n, drawn))
    (hold : ∀ b, ∃ signature, a.signer.sign b = .ok signature)
    (hnew : ∀ b, ∃ signature, k.sign b = .ok signature)
    (hanswer : ∀ b, (drawn.server.respond (.post url Http.joseJson b)).1 = .ok r)
    (hstatus : r.status = .ok) (hnonce : r.nonce? ≠ some drawn.nonce) :
    (rollover k s).1 = .ok ⟨⟩ := by
  rcases rollover_run s k with hunposted | ⟨a', url', looked', oldKey', body, inner, n', drawn', m,
    ha', -, hresolve', -, -, -, hdraw', -, -, hrun⟩
  · exact absurd hunposted.posts (rollover_posts ha hid holdKey hnewKey hresolve hdraw hold hnew)
  · -- what was looked up and drawn is determined by the session
    rw [hresolve] at hresolve'
    cases hresolve'
    rw [hdraw] at hdraw'
    cases hdraw'
    obtain ⟨index, hactive, -⟩ := Option.bind_eq_some_iff.mp ha'
    rw [hrun, send_bind]
    simp only [hanswer, hnonce, if_false]
    rw [expect_bind _ hstatus, replaceKey_apply
      (s := { s with connection := (Connection.Step.post url m.serialized).run drawn }) hactive]

/-! ### Two accounts, one of which gets another key -/

def replacement : KeyPair := .later

def neighbour : Account := { customer with id := "https://ca/account/2" }

/-- A connection that holds the nonce `aaa`, with a server that agrees to a change of keys. -/
def agreeing : Connection where
  server := {
    pending := [
      ((.head, "https://ca/nonce"), (Http.Response.ofCode 200).withHeader Http.replayNonce "bbb"),
      ((.post, "https://ca/key"), (Http.Response.ofCode 200).withHeader Http.replayNonce "ccc")]
    requests := [] }
  directoryUrl := "https://ca/directory"
  directory := some [("newNonce", .string "https://ca/nonce"), ("keyChange", .string "https://ca/key")]
  nonce := "aaa"

/-- A key and two accounts are added. -/
def arriving : List Turn := [
  .call (.addKey "spare" customer.signer) (), .call (.addAccount neighbour false) (),
  .call (.addAccount customer true) ()]

/-- The second account gets another key. -/
def moving : List Turn := arriving ++ [.call (.rollover replacement) ()]

/-- The accounts before the change of keys. -/
def arrived : AccountTable :=
  ((AccountTable.empty.addKey "spare" customer.signer).add neighbour false).add customer true

theorem moving_table : (play ⟨.default, agreeing, .empty⟩ moving).table
    = (AccountTable.Change.rekeyed 1 customer.id replacement).apply arrived := by
  have hdraw : Connection.consume agreeing = (.ok "aaa", (Connection.consume agreeing).2) := rfl
  have hheld : (Connection.consume agreeing).2.nonce = "bbb" := rfl
  have hnonce : ((Http.Response.ofCode 200).withHeader Http.replayNonce "ccc").nonce?
      ≠ some (Connection.consume agreeing).2.nonce := by
    rw [hheld]
    decide +kernel
  -- the server agrees with a nonce that is not the one held
  have hagreed : (rollover replacement ⟨.default, agreeing, arrived⟩).1 = .ok ⟨⟩ :=
    rollover_agreed (a := customer) rfl (by simp [customer]) rfl rfl rfl hdraw (fun b => ⟨_, rfl⟩)
      (fun b => ⟨_, rfl⟩) (fun b => rfl) rfl hnonce
  have harrived : play ⟨.default, agreeing, .empty⟩ arriving = ⟨.default, agreeing, arrived⟩ := rfl
  rw [moving, play_concat, harrived, Turn.run, Call.run, alone_snd]
  -- so the first way to end is excluded, and in the other the second account is active
  rcases rollover_change ⟨.default, agreeing, arrived⟩ replacement with ⟨hfailed, -⟩
    | ⟨-, index, a, hactive, hindex, -, htable⟩
  · rw [hagreed] at hfailed
    cases hfailed
  · obtain rfl : 1 = index := Option.some.inj hactive
    obtain rfl : customer = a := Option.some.inj hindex
    exact htable

theorem moving_keys :
    (play ⟨.default, agreeing, .empty⟩ moving).table.keys.get? customer.id = some replacement
      ∧ (play ⟨.default, agreeing, .empty⟩ moving).table.keys.get? neighbour.id
        = some customer.signer := by
  have hdistinct : Distinct (moving.filterMap Turn.added?) := by
    show List.Nodup ["https://ca/account/2", "https://ca/account/1"]
    decide
  have hnames : NamesApart ⟨.default, agreeing, .empty⟩ moving := by
    rintro (_ | ⟨first, before⟩) turn after name hturns hname a ha
    · -- the key is added when there are no accounts
      cases ha
    · have hmem : turn ∈ moving.tail := by
        rw [hturns]
        exact mem_append_right before mem_cons_self
      simp only [moving, arriving, cons_append, nil_append, tail_cons, mem_cons, not_mem_nil,
        or_false] at hmem
      rcases hmem with rfl | rfl | rfl <;> cases hname
  have hfirst : (play ⟨.default, agreeing, .empty⟩ moving).table.accounts[0]? = some neighbour := by
    rw [moving_table]
    rfl
  have hsecond : (play ⟨.default, agreeing, .empty⟩ moving).table.accounts[1]?
      = some { customer with signer := replacement } := by
    rw [moving_table]
    rfl
  have hall := signer_is_lastKey .default agreeing moving hdistinct hnames moving []
    (append_nil moving).symm
  have hregistered : neighbour.isRegistered
      ∧ ({ customer with signer := replacement } : Account).isRegistered := ⟨rfl, rfl⟩
  exact ⟨(hall 1 _ hsecond hregistered.2).2.1, (hall 0 _ hfirst hregistered.1).2.1⟩

end Session

end Acme
