import Acme.Proofs.Jws.RoundTrip
import Acme.Proofs.Session.Commands

/-!
# Signed requests are authentic

Whatever a command does, each signed request that it sends is what a server has to be able to check:
a message for the URL that it is sent to, with the nonce that was drawn for it, signed by the key
that its header names. `Authenticated` says this of one request, and `Command.posts_authenticated`
of all requests of a command in any session.
-/

namespace Acme

/-- A request that carries a message signed by a plan and with a nonce. -/
structure Authenticated (p : SignPlan) (nonce : String) (q : Http.Request) (m : ParsedJws) : Prop where
  contentType : q.contentType = some Http.joseJson
  parsed : Jws.parse q.body = .ok m
  url : m.header.url = q.url
  nonce : m.header.nonce = some nonce
  alg : m.header.alg = p.signer.algorithm.signatureName
  /-- The header names the key in exactly one way. -/
  binding :
    match p.binding with
    | .jwk key => m.header.jwk = some key ∧ m.header.kid = none
    | .keyId id => m.header.jwk = none ∧ m.header.kid = some id
  signature : p.signer.sign (Bytes.ofText m.signingInput) = .ok m.signature

/-- What a plan signs is authentic where it is sent, and says what it was given. -/
theorem SignPlan.authenticated {p : SignPlan} {nonce url : String} {payload : Bytes} {m : SignedJws}
    (h : p.sign (some nonce) url payload = .ok m) :
    Authenticated p nonce (.post url Http.joseJson m.serialized) m.parsed
      ∧ m.parsed.payload = payload := by
  obtain ⟨hparse, hheader, hpayload, hsign⟩ := Jws.signHeader_ok h
  refine ⟨⟨rfl, hparse, ?url, ?nonce, ?alg, ?binding, hsign⟩, hpayload⟩
  all_goals rw [hheader]
  case url => rw [ProtectedHeader.make_url]; rfl
  case nonce => rw [ProtectedHeader.make_nonce]
  case alg => rw [ProtectedHeader.make_alg]
  case binding =>
    cases p.binding with
    | jwk key => exact ⟨rfl, rfl⟩
    | keyId id => exact ⟨rfl, rfl⟩

/-- Every signed request of a command is authentic: its message is signed by the command's signer,
with the nonce that the connection handed out for this very request. -/
theorem Command.posts_authenticated (s : Session) (c : Command) :
    ∃ added, (c.run s).connection.requests = s.connection.requests ++ added ∧
      ∀ before q rest, added = before ++ q :: rest → q.method = .post →
        ∃ l nonce m, c.Signs s.table l ∧ Authenticated l.plan nonce q m ∧
          ∃ held drawn, s.connection.Converses (c.Signs s.table) held
            ∧ Connection.consume held = (.ok nonce, drawn)
            ∧ drawn.requests = s.connection.requests ++ before
            ∧ ((Connection.Step.post q.url q.body).run drawn).Converses (c.Signs s.table)
                (c.run s).connection := by
  obtain ⟨added, hadded, hcarried⟩ := (c.converses s).exists_carried
  refine ⟨added, hadded, fun before q rest hsplit hpost => ?_⟩
  obtain ⟨l, nonce, m, held, drawn, hl, hheld, hdraw, hrequests, hsign, hq, hrest⟩ :=
    hcarried before q rest hsplit hpost
  subst hq
  exact ⟨l, nonce, m.parsed, hl, (SignPlan.authenticated hsign).1, held, drawn, hheld, hdraw,
    hrequests, hrest⟩

end Acme
