import Acme.Proofs.Session.Calls

/-!
# What calls say

Whatever a call is, it converses only with the letters of its signer (`Call.Signs`): the key of the new
account, the key of the certificate, or the active account. This holds as long as the options that a
caller gives bring no nonces of their own: such a call is a `Command`. Calls that are about no account
of the session besides keep its accounts (`Call.does_neutral`).
-/

namespace Acme

namespace Call

variable {β : Type}

/-- The letters of a call: who signs them, and how their headers name the key. -/
def Signs (t : AccountTable) : Call β → β → Letter → Prop
  | createAccount, a, l => l.Embeds a.signer
  | revoke _ _ (some k), _, l => l.Embeds k
  | sign .., o, l | post .., o, l => (Session.fillDefaults t o).plan true = .ok l.plan
  | _, _, l => l.FromActive t

/-- A call that is about no account of the session. -/
def Neutral : Call β → Prop
  | updateAccount _ | rollover _ | createOrder | addAccount _ _ | setActiveAccount _ | addKey _ _ => False
  | _ => True

end Call

/-- A call that draws its nonces from the session. -/
structure Command : Type 1 where
  {β : Type}
  call : Call β
  object : β
  sourceless : call.nonces? object = none

namespace Command

def run (s : Session) (c : Command) : Session := (c.call.run c.object s).2

def Signs (t : AccountTable) (c : Command) : Letter → Prop := c.call.Signs t c.object

end Command

namespace Session

open Operation

variable {t : AccountTable} {allowed : Letter → Prop}

/-! ### Operations on accounts -/

theorem createAccount_does {a : Account}
    (h : ∀ l : Letter, l.Embeds a.signer → allowed l) :
    Does t allowed (createAccount a) fun _ => True := by
  refine Does.ite (fun _ => Does.throw_bind _ _) fun _ => ?_
  refine (endpoint_does _).bind fun url _ => Does.get.bind fun s _ => ?_
  refine (payloadBytes_does _).bind fun body _ => ?_
  refine (post_does rfl fun p hp => ?_).bind fun r _ => (expect_does _ r).bind fun r _ => ?_
  · exact h _ (SignOptions.embeds_of_plan hp)
  · cases r.location? with
    | none => exact Does.throw _
    | some location => exact Does.pure trivial

theorem updateAccount_speaks (h : ∀ l, l.FromActive t → allowed l) (contact : List String) :
    Speaks t allowed (updateAccount contact) := by
  refine Speaks.bind activeIdentity_does fun a _ => ?_
  refine Speaks.bind (payloadBytes_does _) fun body _ => ?_
  refine Speaks.bind (postDefault_does h _ _) fun r _ => ?_
  exact Speaks.bind_silent (expect_does _ r) fun _ => replaceContact_silent contact

theorem deactivateAccount_does (h : ∀ l, l.FromActive t → allowed l) :
    Does t allowed deactivateAccount fun _ => True := by
  refine activeIdentity_does.bind fun a _ => (payloadBytes_does _).bind fun body _ => ?_
  exact (postDefault_does h _ _).bind fun r _ => (expect_does _ r).bind fun _ _ => Does.pure trivial

theorem rollover_speaks (h : ∀ l, l.FromActive t → allowed l) (k : KeyPair) :
    Speaks t allowed (rollover k) := by
  refine Speaks.bind (endpoint_does _) fun url _ => ?_
  refine Speaks.bind activeIdentity_does fun a ha => ?_
  refine Speaks.bind (Does.ofExcept (P := fun _ => True) fun _ _ => trivial) fun oldKey _ => ?_
  refine Speaks.bind (payloadBytes_does _) fun body _ => ?_
  refine Speaks.bind (Does.ofExcept (P := fun _ => True) fun _ _ => trivial) fun inner _ => ?_
  refine Speaks.bind (post_does rfl fun p hp => h _ ⟨a, ha.1, ha.2, ?_⟩) fun r _ => ?_
  · rw [SignOptions.plan_active ha.1 ha.2 rfl (.inr rfl) (.inr rfl)] at hp
    cases hp
    rfl
  · exact Speaks.bind_silent (expect_does _ r) fun _ => replaceKey_silent a k

/-! ### Operations on orders -/

theorem createOrder_speaks (h : ∀ l, l.FromActive t → allowed l) (o : Order) :
    Speaks t allowed (createOrder o) := by
  refine Speaks.bind activeIdentity_does fun a ha => ?_
  refine Speaks.bind (endpoint_does _) fun url _ => ?_
  refine Speaks.bind (payloadBytes_does _) fun body _ => ?_
  refine Speaks.bind (post_does rfl fun p hp => h _ ⟨a, ha.1, ha.2, ?_⟩) fun r _ => ?_
  · rw [SignOptions.plan_active ha.1 ha.2 rfl (.inr rfl) (.inl rfl)] at hp
    cases hp
    rfl
  · exact Speaks.bind_silent (expect_does _ r) fun answer => recordOrder_silent a answer

variable {R : Type} [Resource R]

theorem update_does (h : ∀ l, l.FromActive t → allowed l) (r : R) :
    Does t allowed (update r) fun _ => True := by
  refine Does.ite (fun _ => Does.throw_bind _ _) fun _ => ?_
  exact (fetch_does h _).bind fun answer _ => replaced_does r answer

theorem fetchAuthorizations_does (h : ∀ l, l.FromActive t → allowed l) (o : Order) :
    Does t allowed (fetchAuthorizations o) fun _ => True :=
  Does.mapM (fun url => (fetch_does h url).bind fun answer _ => described_does url answer) _

theorem finalize_does (h : ∀ l, l.FromActive t → allowed l) (o : Order) (given : Option KeyPair)
    (seed : Bytes) : Does t allowed (finalize o given seed) fun _ => True := by
  have hkey : Does t allowed (certificateKey given seed) fun _ => True := by
    unfold certificateKey
    cases given.or (KeyPair.generate? .ecdsaP256 seed) with
    | none => exact Does.throw _
    | some k => exact Does.pure trivial
  refine Does.ite (fun _ => Does.throw_bind _ _) fun _ => hkey.bind fun k _ => ?_
  refine (Does.ofExcept (P := fun _ => True) fun _ _ => trivial).bind fun request _ => ?_
  refine (payloadBytes_does _).bind fun body _ => (postDefault_does h _ _).bind fun r _ => ?_
  refine (expect_does _ r).bind fun answer _ => (replaced_does o answer).bind fun o _ => ?_
  exact Does.pure trivial

theorem download_does (h : ∀ l, l.FromActive t → allowed l) (o : Order) :
    Does t allowed (download o) fun _ => True := by
  refine Does.ite (fun _ => Does.throw_bind _ _) fun _ => ?_
  cases o.certificate with
  | none => exact Does.throw _
  | some url =>
    exact (fetch_does h url).bind fun answer _ => Does.ofExcept fun _ _ => trivial

theorem revoke_does (certificate : Bytes) (reason : Option UInt8) {given : Option KeyPair}
    (h : ∀ p url payload, (fillDefaults t ((given.map embedding).getD noOptions)).plan true = .ok p →
      allowed ⟨p, url, payload⟩) :
    Does t allowed (revoke certificate reason given) fun _ => True := by
  have hnonces : ((given.map embedding).getD noOptions).nonces = none := by
    cases given <;> rfl
  refine (endpoint_does _).bind fun url _ => (payloadBytes_does _).bind fun body _ => ?_
  refine (post_does hnonces fun p hp => h p url body hp).bind fun r _ => ?_
  exact (expect_does _ r).bind fun _ _ => Does.pure trivial

/-! ### Operations on authorizations and challenges -/

theorem respondChallenge_does (h : ∀ l, l.FromActive t → allowed l) (c : Challenge) :
    Does t allowed (respondChallenge c) fun _ => True := by
  refine Does.ite (fun _ => Does.throw_bind _ _) fun _ => (payloadBytes_does _).bind fun body _ => ?_
  refine (postDefault_does h _ _).bind fun r _ => (expect_does _ r).bind fun answer _ => ?_
  exact replaced_does c answer

theorem deactivateAuthorization_does (h : ∀ l, l.FromActive t → allowed l) (a : Authorization) :
    Does t allowed (deactivateAuthorization a) fun _ => True := by
  refine Does.ite (fun _ => Does.throw_bind _ _) fun _ => (payloadBytes_does _).bind fun body _ => ?_
  refine (postDefault_does h _ _).bind fun r _ => (expect_does _ r).bind fun answer _ => ?_
  exact replaced_does a answer

theorem keyAuthorization_does (token : String) :
    Does t allowed (keyAuthorization token) fun _ => True := by
  refine Does.get.bind fun s _ => ?_
  cases s.table.active? with
  | none => exact Does.throw _
  | some a => exact (Does.ofExcept (P := fun _ => True) fun _ _ => trivial).bind fun _ _ => Does.pure trivial

theorem responder_does (change : Responder → Responder) :
    OperationOn.Does t allowed (modify change : OperationOn Responder PUnit) :=
  fun _ _ hs => ⟨.refl, hs, fun _ _ => trivial⟩

theorem provision_does (a : Authorization) (c : Challenge) :
    OperationOn.Does t allowed (provision a c) := by
  refine (OperationOn.Does.on (keyAuthorization_does c.token)).bind fun value => ?_
  refine (OperationOn.Does.on (Does.ofExcept fun _ _ => trivial)).bind fun key => ?_
  exact (responder_does _).bind fun _ => .pure _

theorem cleanUp_does (a : Authorization) (c : Challenge) : OperationOn.Does t allowed (cleanUp a c) :=
  (OperationOn.Does.on (Does.ofExcept fun _ _ => trivial)).bind fun _ => responder_does _

/-! ### Polling -/

theorem pollUntil_does (h : ∀ l, l.FromActive t → allowed l) (url target : String)
    (policy : Option PollPolicy) (cancelled : Nat → Bool) :
    Does t allowed (pollUntil url target policy cancelled) fun _ => True := by
  refine Does.get.bind fun s _ => ?_
  refine PollPolicy.run_of_closed (fun x => Does t allowed x fun _ => True)
    (fun _ => Does.pure trivial) (fun hx hf => hx.bind fun a _ => hf a) ?_
    (fun _ => Does.pure trivial) _ _
  refine (fetch_does h url).bind fun answer _ => ?_
  unfold statusOf
  split
  · exact Does.pure trivial
  · exact Does.throw _

theorem pollResource_does (h : ∀ l, l.FromActive t → allowed l) (target : String)
    (policy : Option PollPolicy) (cancelled : Nat → Bool) :
    OperationOn.Does t allowed (pollResource target policy cancelled : OperationOn R PollOutcome) := by
  have hlook : OperationOn.Does t allowed (getThe Session : OperationOn R Session) :=
    fun b s hs => ⟨.refl, hs, fun _ _ => trivial⟩
  have hown : OperationOn.Does t allowed (getThe R : OperationOn R R) :=
    fun b s hs => ⟨.refl, hs, fun _ _ => trivial⟩
  have hset (r : R) : OperationOn.Does t allowed (set r : OperationOn R PUnit) :=
    fun b s hs => ⟨.refl, hs, fun _ _ => trivial⟩
  refine hlook.bind fun s => ?_
  refine PollPolicy.run_of_closed (fun x => OperationOn.Does t allowed x)
    (fun a => OperationOn.Does.pure a) (fun hx hf => hx.bind hf) ?_ (fun _ => .pure _) _ _
  refine hown.bind fun r => ?_
  exact (OperationOn.Does.on (update_does h r)).bind fun r => (hset r).bind fun _ => .pure _

/-! ### Signing, and the directory -/

theorem sign_does (url : String) (payload : Bytes) {o : SignOptions} (h : o.nonces = none) :
    Does t allowed ((sign url payload).given o) fun _ => True := by
  intro s hs
  unfold OperationOn.given
  rw [sign_apply h]
  cases (fillDefaults s.table o).plan true with
  | error e => exact ⟨.refl, hs, fun _ _ => trivial⟩
  | ok p =>
    obtain ⟨hconverses, htable, -⟩ := signAs_does p url payload s hs
    exact ⟨hconverses, htable, fun _ _ => trivial⟩

theorem refreshDirectory_does :
    Does t allowed (exchange .directory Connection.refreshDirectory) fun _ => True := by
  refine Does.exchange (fun c => ?_) fun _ _ _ => trivial
  rw [Connection.refreshDirectory_snd]
  exact .quiet .refl rfl

theorem termsOfService_does :
    Does t allowed (exchange .directory Connection.termsOfService) fun _ => True := by
  refine Does.exchange (fun c => ?_) fun _ _ _ => trivial
  obtain ⟨steps, hsteps, hquiet, -⟩ := (Connection.termsOfService_looked c).steps
  rw [hsteps]
  exact Connection.Converses.refl.quiets hquiet

theorem setActiveAccount_silent (index : Nat) : Silent (setActiveAccount index) := by
  refine Silent.get.bind fun s => ?_
  split
  · exact (Silent.throw _).bind fun _ => Silent.modifyTable _
  · exact Silent.modifyTable _

end Session

namespace Operation

variable {t : AccountTable} {allowed : Letter → Prop} {α β ω : Type} {P : α → Prop}

/-! ### Calls of operations -/

/-- What is judged is the session that is left. -/
theorem Does.of_snd {x : Operation α} {y : Operation β} (h : Does t allowed x P)
    (hsame : ∀ s, (y s).2 = (x s).2) : Does t allowed y fun _ => True := by
  intro s hs
  obtain ⟨hconverses, htable, -⟩ := h s hs
  rw [hsame]
  exact ⟨hconverses, htable, fun _ _ => trivial⟩

theorem Does.alone {x : Operation α} (h : Does t allowed x P) (b : Unit) :
    Does t allowed (x.alone.given b) fun _ => True :=
  h.of_snd (alone_snd x b)

theorem Does.inPlace {x : β → Operation β} {b : β} {Q : β → Prop} (h : Does t allowed (x b) Q) :
    Does t allowed ((Operation.inPlace x).given b) fun _ => True :=
  h.of_snd (inPlace_snd x b)

theorem Does.bind_pure {x : OperationOn ω α} {b : ω} (h : Does t allowed (x.given b) P) (g : α → β) :
    Does t allowed ((x >>= fun a => Pure.pure (g a)).given b) fun _ => True :=
  h.of_snd (x.bind_pure_snd g b)

theorem Speaks.of_snd {x : Operation α} {y : Operation β} (h : Speaks t allowed x)
    (hsame : ∀ s, (y s).2 = (x s).2) : Speaks t allowed y := by
  intro s hs
  rw [hsame]
  exact h s hs

end Operation

namespace Call

open Session Operation

variable {β : Type} {b : β}

/-- A call that is about no account of the session converses with its own letters only, and keeps the
accounts. -/
theorem does_neutral {call : Call β} (h : call.Neutral) (hsourceless : call.nonces? b = none)
    (t : AccountTable) : Does t (call.Signs t b) (call.run.given b) fun _ => True := by
  cases call with
  | updateAccount | rollover | createOrder | addAccount | setActiveAccount | addKey => cases h
  | createAccount => exact (createAccount_does fun l hl => hl).inPlace
  | deactivateAccount => exact (deactivateAccount_does fun l hl => hl).alone b
  | update => exact (update_does (fun l hl => hl) b).inPlace
  | fetchAuthorizations o => exact (fetchAuthorizations_does (fun l hl => hl) o).alone b
  | pollUntil url target policy cancelled =>
    exact (pollUntil_does (fun l hl => hl) url target policy cancelled).alone b
  | pollResource target policy cancelled =>
    exact (pollResource_does (fun l hl => hl) target policy cancelled b).bind_pure _
  | respondChallenge => exact (respondChallenge_does (fun l hl => hl) b).inPlace
  | deactivateAuthorization => exact (deactivateAuthorization_does (fun l hl => hl) b).inPlace
  | provision a c => exact (provision_does a c b).bind_pure _
  | cleanUp a c => exact cleanUp_does a c b
  | keyAuthorization token => exact (keyAuthorization_does token).alone b
  | finalize given seed =>
    exact Does.inPlace (Q := fun _ => True)
      ((finalize_does (fun l hl => hl) b given seed).bind fun _ _ => Does.pure trivial)
  | download o => exact (download_does (fun l hl => hl) o).alone b
  | revoke certificate reason given =>
    refine (revoke_does certificate reason fun p url payload hp => ?_).alone b
    cases given with
    | none => exact SignOptions.plan_noOptions hp
    | some k => exact SignOptions.embeds_of_plan hp
  | fetch url => exact (fetch_does (fun l hl => hl) url).alone b
  | postAsGet url => exact (postDefault_does (fun l hl => hl) url []).alone b
  | getAnonymously url => exact (getAnonymously_does url).alone b
  | sign url payload => exact (sign_does url payload hsourceless).bind_pure _
  | post url payload => exact (post_does hsourceless fun p hp => hp).bind_pure _
  | refreshNonce => exact refreshNonce_does.alone b
  | endpoint name => exact (endpoint_does name).alone b
  | refreshDirectory => exact refreshDirectory_does.alone b
  | termsOfService => exact termsOfService_does.alone b
  | activeAccount | accounts | key => exact fun s hs => ⟨.refl, hs, fun _ _ => trivial⟩

theorem speaks (call : Call β) (hsourceless : call.nonces? b = none) (t : AccountTable) :
    Speaks t (call.Signs t b) (call.run.given b) := by
  by_cases h : call.Neutral
  · exact (does_neutral h hsourceless t).speaks
  · cases call with
    | updateAccount contact =>
      exact (updateAccount_speaks (fun l hl => hl) contact).of_snd (alone_snd _ b)
    | rollover k => exact (rollover_speaks (fun l hl => hl) k).of_snd (alone_snd _ b)
    | createOrder => exact (createOrder_speaks (fun l hl => hl) b).of_snd (inPlace_snd Session.createOrder b)
    | setActiveAccount index =>
      exact (setActiveAccount_silent index).speaks.of_snd (alone_snd _ b)
    | addAccount a activate | addKey name k => exact fun s hs => .refl
    | _ => exact (h trivial).elim

end Call

/-- A command converses with its own letters only. -/
theorem Command.converses (s : Session) (c : Command) :
    s.connection.Converses (c.Signs s.table) (c.run s).connection :=
  c.call.speaks c.sourceless s.table s rfl

end Acme
