import Acme.Proofs.Key.Reading

/-!
# Signatures in messages

A signature on P-256 is two numbers below the order of the group. Certificates write them as integers,
which take as many octets as they need and one more if their first bit is set; messages write each of
them in 32 octets. What has been written as integers is read back (`ofDer?_toDer`), and both numbers have
room in 32 octets (`toBytes?_eq`), so changing from the one form to the other never fails
(`messageForm_toDer`), however long or short the integers are.

The signatures that are made here consist of such numbers (`inRange_of_sign?`); the statement for messages
is about anything that signs as certificates have it (`signBy_fixedWidth`).
-/

namespace Acme

namespace Ecdsa

namespace Signature

/-- Numbers that a signature may consist of. -/
structure InRange (g : Signature) : Prop where
  r_pos : 0 < g.r
  r_lt : g.r < P256.n
  s_pos : 0 < g.s
  s_lt : g.s < P256.n

/-- The numbers have room in the octets that messages give them. -/
theorem lt_capacity_of_lt_n {x : Nat} (h : x < P256.n) : x < Bytes.capacity width :=
  Nat.lt_trans h (by decide)

/-- The two integers that certificates have for a signature. -/
def items (g : Signature) : List Der.Item :=
  [⟨Der.Tag.integer, Der.natContent g.r⟩, ⟨Der.Tag.integer, Der.natContent g.s⟩]

variable {g : Signature}

/-- Two integers are read as they were written. -/
theorem ofDer?_toDer (h : g.InRange) : ofDer? g.toDer = some g := by
  have hr := Der.length_natContent_le (lt_capacity_of_lt_n h.r_lt)
  have hs := Der.length_natContent_le (lt_capacity_of_lt_n h.s_lt)
  have hbytes : g.toDer = Der.encode Der.Tag.sequence (g.items.flatMap Der.Item.bytes) := rfl
  have hcontent : ∀ i ∈ g.items, i.content.length ≤ width + 1 := by
    intro i hi
    rw [items, List.mem_cons, List.mem_singleton] at hi
    cases hi with
    | inl hi => rw [hi]; exact hr
    | inr hi => rw [hi]; exact hs
  have hroom : (g.items.flatMap Der.Item.bytes).length < Bytes.capacity 127 := by
    refine Nat.lt_of_le_of_lt (Der.length_flatMap_bytes_le hcontent (by decide)) ?_
    show 2 * _ < _
    decide
  rw [ofDer?, hbytes, Der.leadingSequence?_encode hroom]
  simp [items, Der.nat?_natContent]

theorem toBytes?_eq (h : g.InRange) :
    g.toBytes? = some (Bytes.ofNatWidth width g.r ++ Bytes.ofNatWidth width g.s) :=
  if_pos ⟨lt_capacity_of_lt_n h.r_lt, lt_capacity_of_lt_n h.s_lt⟩

end Signature

theorem inRange_of_signWith? {d z k : Nat} {g : Signature} (h : signWith? d z k = some g) :
    g.InRange := by
  obtain ⟨q, -, h⟩ := Option.bind_eq_some_iff.mp h
  obtain ⟨inverse, -, h⟩ := Option.bind_eq_some_iff.mp h
  dsimp only at h
  split at h
  · rename_i hgood
    cases h
    have hn : 0 < P256.n := by decide
    exact ⟨Nat.pos_of_ne_zero hgood.2.2.1, Nat.mod_lt _ hn, Nat.pos_of_ne_zero hgood.2.2.2,
      Nat.mod_lt _ hn⟩
  · cases h

theorem inRange_of_search {d z tries : Nat} {generator : Generator} {g : Signature}
    (h : search d z tries generator = some g) : g.InRange := by
  induction tries generalizing generator with
  | zero => cases h
  | succ tries ih =>
    rw [search] at h
    split at h
    · rename_i hfound
      cases h
      exact inRange_of_signWith? hfound
    · exact ih h

theorem inRange_of_sign? {d : Nat} {message : Bytes} {g : Signature} (h : sign? d message = some g) :
    g.InRange :=
  inRange_of_search h

end Ecdsa

namespace KeyPair

open Ecdsa (Signature)

variable {g : Signature}

theorem messageForm_toDer (h : g.InRange) :
    messageForm .ecdsaP256 g.toDer = .ok (Bytes.ofNatWidth 32 g.r ++ Bytes.ofNatWidth 32 g.s) := by
  rw [messageForm, Signature.ofDer?_toDer h, Option.bind_some, Signature.toBytes?_eq h]
  rfl

/-- A signature made here fails if the key is of no use or if none is found, but never over its form. -/
theorem sign_ec (k : EcKey) (message : Bytes) :
    (∃ g : Signature, g.InRange ∧ (KeyPair.ec k).signDer message = .ok g.toDer
      ∧ (KeyPair.ec k).sign message = .ok (Bytes.ofNatWidth 32 g.r ++ Bytes.ofNatWidth 32 g.s))
    ∨ (¬ k.isUsable ∧ (KeyPair.ec k).sign message = .error .unusable)
    ∨ (KeyPair.ec k).sign message = .error .signing := by
  by_cases husable : k.isUsable
  · have hder : (KeyPair.ec k).signDer message = certificateForm (Ecdsa.sign? k.secret message) :=
      if_pos husable
    have hsign : (KeyPair.ec k).sign message
        = certificateForm (Ecdsa.sign? k.secret message) >>= messageForm .ecdsaP256 :=
      congrArg (· >>= messageForm .ecdsaP256) hder
    -- the search for a signature is bounded, so it may find none
    cases hfound : Ecdsa.sign? k.secret message with
    | some g =>
      have hg := Ecdsa.inRange_of_sign? hfound
      rw [hfound] at hsign hder
      exact .inl ⟨g, hg, hder, hsign.trans (messageForm_toDer hg)⟩
    | none =>
      rw [hfound] at hsign
      exact .inr (.inr hsign)
  · have hder : (KeyPair.ec k).signDer message = .error .unusable := if_neg husable
    exact .inr (.inl ⟨husable, congrArg (· >>= messageForm .ecdsaP256) hder⟩)

/-- Whatever makes the signatures of certificates, a key on P-256 turns each of them into one for
messages: 64 octets, of which the first 32 are the one number and the last 32 the other, with zeros in
front of a number that is short. -/
theorem signBy_fixedWidth (primitive : KeyPair → Bytes → Except KeyError Bytes) (k : EcKey)
    (message : Bytes) {g : Signature} (hg : g.InRange)
    (hsign : primitive (.ec k) message = .ok g.toDer) :
    ∃ b, signBy primitive (.ec k) message = .ok b ∧ b.length = 64
      ∧ b.take 32 = Bytes.ofNatWidth 32 g.r ∧ b.drop 32 = Bytes.ofNatWidth 32 g.s
      ∧ Bytes.toNat (b.take 32) = g.r ∧ Bytes.toNat (b.drop 32) = g.s := by
  have hlength (x : Nat) : (Bytes.ofNatWidth 32 x).length = 32 := Bytes.length_ofNatWidth 32 x
  -- both numbers are below the order of the group, which has 32 octets
  have hnumber {x : Nat} (hx : x < P256.n) : Bytes.toNat (Bytes.ofNatWidth 32 x) = x := by
    rw [Bytes.toNat_ofNatWidth]
    exact Nat.mod_eq_of_lt (Signature.lt_capacity_of_lt_n hx)
  have htake : (Bytes.ofNatWidth 32 g.r ++ Bytes.ofNatWidth 32 g.s).take 32 = Bytes.ofNatWidth 32 g.r :=
    List.take_left' (hlength g.r)
  have hdrop : (Bytes.ofNatWidth 32 g.r ++ Bytes.ofNatWidth 32 g.s).drop 32 = Bytes.ofNatWidth 32 g.s :=
    List.drop_left' (hlength g.r)
  refine ⟨Bytes.ofNatWidth 32 g.r ++ Bytes.ofNatWidth 32 g.s, ?_, ?_, htake, hdrop, ?_, ?_⟩
  · rw [signBy, hsign]
    exact messageForm_toDer hg
  · rw [List.length_append, hlength, hlength]
  · rw [htake]
    exact hnumber hg.r_lt
  · rw [hdrop]
    exact hnumber hg.s_lt

/-- Signs with a secret number that gives a short signature. -/
def shortPrimitive : KeyPair → Bytes → Except KeyError Bytes
  | .ec k, message => certificateForm (Ecdsa.signWith? k.secret (Ecdsa.digest message) 40393)
  | k, message => k.signDer message

theorem shortPrimitive_signed :
    ∃ b, signBy shortPrimitive (.ec .unit) [50, 49, 52] = .ok b ∧ b.length = 64
      ∧ b.take 3 = [0, 0, 0x3f] ∧ (b.drop 32).take 2 = [0, 0xd6] := by
  have hsign : shortPrimitive (.ec .unit) [50, 49, 52]
      = .ok (⟨0x3f5f178aa0706c4231eb6e5495aa1642c5b8a994127c89465f22994a42f9,
        0xd6fa192e782ce518106b490e05165fb3d277cbeae77fd111d2825a4f36a401⟩ : Signature).toDer := by
    decide +kernel
  obtain ⟨b, hb, hlength, hfront, hback, -⟩ := signBy_fixedWidth shortPrimitive .unit
    [50, 49, 52] ⟨by decide, by decide, by decide, by decide⟩ hsign
  refine ⟨b, hb, hlength, ?_, ?_⟩
  · have htake : b.take 3 = (b.take 32).take 3 := by rw [List.take_take]; rfl
    rw [htake, hfront]
    decide
  · rw [hback]
    decide

end KeyPair

end Acme
