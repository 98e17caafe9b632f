import Acme.Proofs.Session.Keys

/-!
# What lasts in a session

Accounts are added to a session and never taken away, moved or renamed, and no name in the table of
keys is ever without a key again (`AccountTable.Grows`). So the place that an account is given when it
is added means that account for the rest of the session, and the active account, if one has been
chosen, is there (`AccountTable.InOrder`).

What does change about an account has a cause, which can be seen in the turn of the session in which
it changes (`accounts_last`).
-/

namespace Acme

open List

variable {β : Type}

/-! ### What one change keeps -/

namespace AccountTable

/-- The place of the active account is that of an account. -/
def InOrder (t : AccountTable) : Prop := ∀ index, t.active = some index → index < t.accounts.length

/-- A table and a later one: every account has kept its place and its identifier, and may have more
orders after those that it had; and every name that had a key has one. -/
structure Grows (t u : AccountTable) : Prop where
  placed : ∀ (place : Nat) (a : Account), t.accounts[place]? = some a →
    ∃ b : Account, u.accounts[place]? = some b ∧ b.id = a.id ∧ a.orders <+: b.orders
  filed : ∀ name, (t.keys.get? name).isSome → (u.keys.get? name).isSome

theorem Grows.refl (t : AccountTable) : t.Grows t :=
  ⟨fun _ a ha => ⟨a, ha, rfl, prefix_rfl⟩, fun _ h => h⟩

theorem Grows.trans {t u v : AccountTable} (h : t.Grows u) (h' : u.Grows v) : t.Grows v where
  placed := by
    intro place a ha
    obtain ⟨b, hb, hid, horders⟩ := h.placed place a ha
    obtain ⟨c, hc, hid', horders'⟩ := h'.placed place b hb
    exact ⟨c, hc, hid'.trans hid, horders.trans horders'⟩
  filed := fun name hname => h'.filed name (h.filed name hname)

variable {t : AccountTable} {place : Nat} {a : Account}

theorem getElem?_modify_accounts (h : t.accounts[place]? = some a) (index : Nat)
    (change : Account → Account) :
    (t.modify index change).accounts[place]? = some (if index = place then change a else a) := by
  rw [modify, getElem?_modify, h]
  rfl

namespace Change

/-- What a change makes of the account at a place. Another key or another contact comes from a change
of just that, at just that place. -/
theorem apply_placed (c : Change) (h : t.accounts[place]? = some a) :
    ∃ b, (c.apply t).accounts[place]? = some b ∧ b.id = a.id ∧ a.orders <+: b.orders
      ∧ (b.signer ≠ a.signer → ∃ id k, c = .rekeyed place id k ∧ b.signer = k)
      ∧ (b.contact ≠ a.contact → ∃ contact, c = .contacted place contact ∧ b.contact = contact) := by
  -- where the account is as it was, there is nothing to account for
  have hsame {u : AccountTable} (hu : u.accounts[place]? = some a) :
      ∃ b, u.accounts[place]? = some b ∧ b.id = a.id ∧ a.orders <+: b.orders
        ∧ (b.signer ≠ a.signer → ∃ id k, c = .rekeyed place id k ∧ b.signer = k)
        ∧ (b.contact ≠ a.contact → ∃ contact, c = .contacted place contact ∧ b.contact = contact) :=
    ⟨a, hu, rfl, prefix_rfl, fun hne => absurd rfl hne, fun hne => absurd rfl hne⟩
  cases c with
  | none | activated index | keyAdded name k => exact hsame h
  | added new activate =>
    refine hsame ?_
    show (t.add new activate).accounts[place]? = some a
    rw [accounts_add, getElem?_append_left (List.getElem?_eq_some_iff.mp h).1]
    exact h
  | rekeyed index id k =>
    refine ⟨_, getElem?_modify_accounts (t := t.addKey id k) h index _, ?_⟩
    split
    · rename_i hindex
      subst hindex
      exact ⟨rfl, prefix_rfl, fun _ => ⟨id, k, rfl, rfl⟩, fun hne => absurd rfl hne⟩
    · exact ⟨rfl, prefix_rfl, fun hne => absurd rfl hne, fun hne => absurd rfl hne⟩
  | contacted index contact =>
    refine ⟨_, getElem?_modify_accounts h index _, ?_⟩
    split
    · rename_i hindex
      subst hindex
      exact ⟨rfl, prefix_rfl, fun hne => absurd rfl hne, fun _ => ⟨contact, rfl, rfl⟩⟩
    · exact ⟨rfl, prefix_rfl, fun hne => absurd rfl hne, fun hne => absurd rfl hne⟩
  | ordered id url =>
    show ∃ b, (t.recordOrder id url).accounts[place]? = some b ∧ _
    unfold recordOrder
    split
    · refine ⟨_, getElem?_modify_accounts h _ _, ?_⟩
      split
      · exact ⟨rfl, prefix_append _ _, fun hne => absurd rfl hne, fun hne => absurd rfl hne⟩
      · exact ⟨rfl, prefix_rfl, fun hne => absurd rfl hne, fun hne => absurd rfl hne⟩
    · exact hsame h

/-- A change may put another key under a name, but does not take the name away. -/
theorem apply_filed (c : Change) {name : String} (h : (t.keys.get? name).isSome) :
    ((c.apply t).keys.get? name).isSome := by
  -- what is filed under another name leaves the entry, and under the same name replaces it
  have hinsert (other : String) (k : KeyPair) : ((t.keys.insert other k).get? name).isSome := by
    rw [Table.get?_insert]
    split
    · rfl
    · exact h
  cases c with
  | none | activated index | contacted index contact => exact h
  | keyAdded other k | rekeyed index other k => exact hinsert other k
  | added new activate =>
    show ((t.add new activate).keys.get? name).isSome
    rw [keys_add]
    split
    · exact hinsert new.id new.signer
    · exact h
  | ordered id url =>
    show ((t.recordOrder id url).keys.get? name).isSome
    unfold recordOrder
    split <;> exact h

theorem apply_grows (c : Change) (t : AccountTable) : t.Grows (c.apply t) where
  placed := by
    intro place a ha
    obtain ⟨b, hb, hid, horders, -⟩ := c.apply_placed ha
    exact ⟨b, hb, hid, horders⟩
  filed := fun _ h => c.apply_filed h

end Change

theorem InOrder.empty : empty.InOrder := by
  rintro index ⟨⟩

/-- A change keeps the order unless it makes an account the active one that is not there. -/
theorem InOrder.apply {c : Change} (h : t.InOrder)
    (hindex : ∀ index, c = .activated index → index < t.accounts.length) : (c.apply t).InOrder := by
  -- changing accounts leaves their number as it is
  have hmodify (index : Nat) (change : Account → Account) : (t.modify index change).InOrder := by
    intro active hactive
    rw [modify, length_modify]
    exact h active hactive
  cases c with
  | none | keyAdded name k => exact h
  | rekeyed index id k => exact hmodify index _
  | contacted index contact => exact hmodify index _
  | activated index =>
    rintro _ ⟨⟩
    exact hindex index rfl
  | added new activate =>
    intro active hactive
    change (t.add new activate).active = some active at hactive
    show active < (t.add new activate).accounts.length
    rw [accounts_add, length_append, length_singleton]
    rw [active_add] at hactive
    split at hactive
    · cases hactive
      omega
    · have hbefore := h active hactive
      omega
  | ordered id url =>
    show (t.recordOrder id url).InOrder
    unfold recordOrder
    split
    · exact hmodify _ _
    · exact h

end AccountTable

/-! ### What one turn keeps -/

/-- What makes a change to a table of accounts: an account becomes active that is there; another key
comes from a change of keys, and another contact from a change of contact, that has succeeded while the
account was active. -/
def AccountTable.Change.Caused (t : AccountTable) (turn : Turn) (succeeds : Bool) : Change → Prop
  | activated index => index < t.accounts.length
  | rekeyed index _ k =>
    turn = .call (.rollover k) () ∧ succeeds = true ∧ t.active = some index
  | contacted index contact =>
    ∃ given, turn = .call (.updateAccount given) () ∧ succeeds = true ∧ t.active = some index
      ∧ contact = given.map Payload.normalContact
  | _ => True

namespace Call

variable {t : AccountTable} {call : Call β} {succeeds : Bool} {c : AccountTable.Change}

theorem Makes.caused (h : call.Makes t succeeds c) (b : β) : c.Caused t (.call call b) succeeds := by
  cases call with
  | addAccount a activate =>
    obtain rfl : c = .added a activate := h
    trivial
  | addKey name k =>
    obtain rfl : c = .keyAdded name k := h
    trivial
  | createOrder =>
    rcases h with ⟨-, rfl⟩ | ⟨a, url, -, rfl⟩
    · trivial
    · trivial
  | rollover k =>
    cases succeeds with
    | false =>
      obtain rfl : c = .none := h
      trivial
    | true =>
      obtain ⟨index, a, hactive, -, -, rfl⟩ := h
      exact ⟨rfl, rfl, hactive⟩
  | setActiveAccount index =>
    cases succeeds with
    | false =>
      obtain rfl : c = .none := h
      trivial
    | true =>
      obtain ⟨hindex, rfl⟩ := h
      exact hindex
  | updateAccount contact =>
    cases succeeds with
    | false =>
      obtain rfl : c = .none := h
      trivial
    | true =>
      obtain ⟨index, hactive, rfl⟩ := h
      exact ⟨contact, rfl, rfl, hactive, rfl⟩
  | _ =>
    obtain rfl : c = .none := h
    trivial

end Call

namespace Turn

open AccountTable

/-- Whether the call of a turn succeeds. -/
def succeeds (s : Session) : Turn → Bool
  | call c b => (c.run b s).1.1.isOk
  | server _ _ => true

/-- What a turn leaves behind is the table with a change that the turn has made. -/
theorem exists_change (turn : Turn) (s : Session) :
    ∃ c : Change, c.Caused s.table turn (turn.succeeds s) ∧ (turn.run s).table = c.apply s.table := by
  cases turn with
  | server route r => exact ⟨.none, trivial, rfl⟩
  | call call b =>
    obtain ⟨c, hmakes, htable⟩ := call.exists_change b s
    exact ⟨c, hmakes.caused b, htable⟩

theorem grows_run (turn : Turn) (s : Session) : s.table.Grows (turn.run s).table := by
  obtain ⟨c, -, htable⟩ := turn.exists_change s
  rw [htable]
  exact c.apply_grows s.table

theorem inOrder_run (turn : Turn) {s : Session} (h : s.table.InOrder) :
    (turn.run s).table.InOrder := by
  obtain ⟨c, hcaused, htable⟩ := turn.exists_change s
  rw [htable]
  refine h.apply fun index hc => ?_
  subst hc
  exact hcaused

end Turn

/-! ### What a whole session keeps -/

namespace Session

theorem grows_play (s : Session) (turns : List Turn) : s.table.Grows (s.play turns).table := by
  induction turns generalizing s with
  | nil => exact .refl _
  | cons turn turns ih => exact (turn.grows_run s).trans (ih (turn.run s))

theorem inOrder_play {s : Session} (h : s.table.InOrder) (turns : List Turn) :
    (s.play turns).table.InOrder := by
  induction turns generalizing s with
  | nil => exact h
  | cons turn turns ih => exact ih (turn.inOrder_run h)

/-- The accounts of a session that begins without accounts, after the turns `before`, and what becomes
of them in the turns `after`, whatever these are and whether or not they succeed. The active account
is one of the accounts. An account that is added now stands at the place that is given back, and stands
there later, as every account stands where it stood, with its identifier, and with its orders before
any new ones. No name in the table of keys is lost. In one turn an account has another key only if a
change to that key has succeeded while the account was active; and another contact only if a change to
that contact, in normal form, has. -/
theorem accounts_last (config : Config) (connection : Connection) (before after : List Turn) :
    let s : Session := play ⟨config, connection, .empty⟩ before
    (∀ index, s.table.active = some index → index < s.table.accounts.length)
      ∧ (∀ a activate, ∃ index, (addAccount a activate s).1 = .ok index
          ∧ (addAccount a activate s).2.table.accounts[index]? = some a
          ∧ ∃ b, ((addAccount a activate s).2.play after).table.accounts[index]? = some b
            ∧ b.id = a.id ∧ a.orders <+: b.orders)
      ∧ (∀ (place : Nat) (a : Account), s.table.accounts[place]? = some a →
          ∃ b : Account, (s.play after).table.accounts[place]? = some b
            ∧ b.id = a.id ∧ a.orders <+: b.orders)
      ∧ (∀ name, (s.table.keys.get? name).isSome → ((s.play after).table.keys.get? name).isSome)
      ∧ ∀ (turn : Turn) (place : Nat) (a b : Account), s.table.accounts[place]? = some a →
        (turn.run s).table.accounts[place]? = some b →
          (b.signer ≠ a.signer → ∃ k, turn = .call (.rollover k) () ∧ turn.succeeds s = true
              ∧ s.table.active = some place ∧ b.signer = k)
            ∧ (b.contact ≠ a.contact → ∃ given, turn = .call (.updateAccount given) ()
              ∧ turn.succeeds s = true ∧ s.table.active = some place
              ∧ b.contact = given.map Payload.normalContact) := by
  intro s
  have hgrows := grows_play s after
  refine ⟨inOrder_play .empty before, fun a activate => ?_, hgrows.placed, hgrows.filed,
    fun turn place a b ha hb => ?_⟩
  · have hadded : (addAccount a activate s).2.table.accounts = s.table.accounts ++ [a] :=
      AccountTable.accounts_add s.table a activate
    have hplace : (addAccount a activate s).2.table.accounts[s.table.accounts.length]? = some a := by
      rw [hadded, getElem?_concat_length]
    exact ⟨s.table.accounts.length, rfl, hplace,
      (grows_play (addAccount a activate s).2 after).placed _ a hplace⟩
  · -- the change that the turn has made is at the place, and has its cause
    obtain ⟨c, hcaused, htable⟩ := turn.exists_change s
    obtain ⟨b', hb', -, -, hsigner, hcontact⟩ := c.apply_placed ha
    rw [htable, hb'] at hb
    cases hb
    refine ⟨fun hne => ?_, fun hne => ?_⟩
    · obtain ⟨id, k, rfl, hk⟩ := hsigner hne
      obtain ⟨hturn, hsucceeds, hactive⟩ := hcaused
      exact ⟨k, hturn, hsucceeds, hactive, hk⟩
    · obtain ⟨contact, rfl, hgiven⟩ := hcontact hne
      obtain ⟨given, hturn, hsucceeds, hactive, rfl⟩ := hcaused
      exact ⟨given, hturn, hsucceeds, hactive, hgiven⟩

/-- The second account has another key after the change of keys, so this has succeeded while that account
was active. Both accounts, and the key that no account had, are still there. -/
theorem moving_lasts :
    let s : Session := play ⟨.default, agreeing, .empty⟩ arriving
    1 < s.table.accounts.length
      ∧ (∃ b, (s.play [.call (.rollover replacement) ()]).table.accounts[0]? = some b
        ∧ b.id = neighbour.id)
      ∧ ((s.play [.call (.rollover replacement) ()]).table.keys.get? "spare").isSome
      ∧ (Turn.call (.rollover replacement) ()).succeeds s = true := by
  intro s
  obtain ⟨hactive, -, hplaced, hfiled, hcauses⟩ :=
    accounts_last .default agreeing arriving [.call (.rollover replacement) ()]
  -- the change of keys succeeds, as shown there, and the account has its new key
  have hafter : (Turn.run s (.call (.rollover replacement) ())).table.accounts[1]?
      = some { customer with signer := replacement } := by
    have htable := moving_table
    rw [moving, play_concat] at htable
    rw [htable]
    rfl
  obtain ⟨hsigner, -⟩ := hcauses (.call (.rollover replacement) ()) 1 customer _ rfl hafter
  obtain ⟨k, -, hsucceeds, -⟩ := hsigner KeyPair.later_ne_earlier
  obtain ⟨b, hb, hid, -⟩ := hplaced 0 neighbour rfl
  exact ⟨hactive 1 rfl, ⟨b, hb, hid⟩, hfiled "spare" (by decide), hsucceeds⟩

end Session

end Acme
