import Acme.Proofs.Jws.NormalForm
import Mathlib.Data.List.Basic

/-!
# What is signed determines what is read

A signature is for a text that is two members of the message with a point between them. Base64 is read
leniently, with any padding at the end, so that one header has many texts. But no text that can be read
has a point in it (`point_not_mem_of_decoded`), so the text that is signed comes apart in one way only
(`signingInput_split`), and messages with one text to sign are read as one header and one payload.
-/

namespace Acme

namespace Jws

/-- A text that can be read as base64 has no point in it. -/
theorem point_not_mem_of_decoded {s : String} {b : Bytes} (h : decoded s = .ok b) :
    '.' ∉ s.toList := by
  unfold decoded at h
  split at h
  · rename_i octets hread
    intro hpoint
    exact absurd (Base64.mem_chars_of_ofUrl hread '.' hpoint) (by decide)
  · cases h

/-- What a message that can be taken apart is made of. -/
theorem parse_ok {b : Bytes} {m : ParsedJws} (h : parse b = .ok m) :
    ∃ j header, ofBytes? b = some j ∧ decoded j.header = .ok header
      ∧ ProtectedHeader.ofBytes? header = some m.header ∧ decoded j.payload = .ok m.payload
      ∧ m.signingInput = j.header ++ "." ++ j.payload := by
  obtain ⟨j, hj, hsays⟩ := parse_eq_ok_iff.mp h
  obtain ⟨header, hheader, hread⟩ := hsays.header
  exact ⟨j, header, hj, decoded_eq_ok_iff.mpr hheader, hread, decoded_eq_ok_iff.mpr hsays.payload,
    hsays.signingInput⟩

/-- The text that a signature is for has one point, so it comes apart in one way only. -/
theorem signingInput_split {b : Bytes} {m : ParsedJws} {j : Jws} (h : parse b = .ok m)
    (hj : ofBytes? b = some j) (p q : String) :
    m.signingInput = p ++ "." ++ q ↔ p = j.header ∧ q = j.payload := by
  obtain ⟨j', header, hj', hheader, -, hpayload, hinput⟩ := parse_ok h
  obtain rfl : j' = j := Option.some.inj (hj'.symm.trans hj)
  have hfront := point_not_mem_of_decoded hheader
  have hback := point_not_mem_of_decoded hpayload
  constructor
  · intro hsplit
    have hchars : j'.header.toList ++ '.' :: j'.payload.toList = p.toList ++ '.' :: q.toList := by
      simpa using congrArg String.toList (hinput.symm.trans hsplit)
    obtain ⟨hp, -, hq⟩ := (List.append_cons_inj_of_notMem hfront hback).mp hchars
    exact ⟨String.toList_inj.mp hp.symm, String.toList_inj.mp hq.symm⟩
  · rintro ⟨rfl, rfl⟩
    exact hinput

/-- Two messages with the same text to sign say the same, whoever wrote them and however they are
laid out: one signature is never good for two headers or two payloads. -/
theorem read_of_signingInput {b c : Bytes} {m n : ParsedJws} (hb : parse b = .ok m)
    (hc : parse c = .ok n) (h : m.signingInput = n.signingInput) :
    m.header = n.header ∧ m.payload = n.payload
      ∧ ∃ header payload,
        (∀ p q, m.signingInput = p ++ "." ++ q ↔ p = header ∧ q = payload)
          ∧ (∃ signature, ofBytes? b = some ⟨header, payload, signature⟩)
          ∧ ∃ signature, ofBytes? c = some ⟨header, payload, signature⟩ := by
  obtain ⟨j, header, hj, hheader, hread, hpayload, -⟩ := parse_ok hb
  obtain ⟨k, header', hk, hheader', hread', hpayload', hinput⟩ := parse_ok hc
  -- both come apart at the only point
  obtain ⟨hfront, hback⟩ := (signingInput_split hb hj k.header k.payload).mp (h.trans hinput)
  rw [hfront, hheader] at hheader'
  rw [hback, hpayload] at hpayload'
  cases hheader'
  refine ⟨Option.some.inj (hread.symm.trans hread'), Except.ok.inj hpayload', j.header, j.payload,
    signingInput_split hb hj, ⟨j.signature, hj⟩, k.signature, ?_⟩
  rw [hk, ← hfront, ← hback]

/-- A message with white space, a member that is passed over, escapes and padding. -/
def loose : Bytes := Bytes.ofText
  " \x7b \"payload\" : \"e30==\", \"x\": [\x7b\x7d, 1e9], \"signature\": \"AA\",
    \"\\u0070rotected\" : \"eyJhbGciOiIiLCJ1cmwiOiIifQ=\" \x7d "

/-- The same as an array, with another signature. -/
def listed : Bytes := Bytes.ofText "[\"eyJhbGciOiIiLCJ1cmwiOiIifQ=\",\"e30==\",\"\"]"

theorem loose_listed :
    ∃ m n, parse loose = .ok m ∧ parse listed = .ok n ∧ m.signingInput = n.signingInput
      ∧ m.signature ≠ n.signature ∧ m.header = n.header ∧ m.payload = n.payload := by
  have hloose : parse loose = .ok ⟨⟨"", none, "", none, none⟩, Bytes.ofText "\x7b\x7d", [0],
      "eyJhbGciOiIiLCJ1cmwiOiIifQ=.e30=="⟩ := by
    decide +kernel
  have hlisted : parse listed = .ok ⟨⟨"", none, "", none, none⟩, Bytes.ofText "\x7b\x7d", [],
      "eyJhbGciOiIiLCJ1cmwiOiIifQ=.e30=="⟩ := by
    decide +kernel
  obtain ⟨hheader, hpayload, -⟩ := read_of_signingInput hloose hlisted rfl
  exact ⟨_, _, hloose, hlisted, rfl, by decide, hheader, hpayload⟩

end Jws
end Acme
