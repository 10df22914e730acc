import Lwm2mClient.Proofs.Service.Bodies
import Lwm2mClient.Proofs.Service.Moves
import Lwm2mClient.Proofs.Sessions.Gate

/-!
Where lifecycle work sends a Bootstrap request. Whatever it is answered, it does so right after
it has opened a session with the server at the address that the request goes to, and the answer
leads to the end of the session.
-/
namespace Lwm2mClient

open Net Program

/-- Any call but the one that sends a Bootstrap request. -/
def Call.isPlain : Call → Prop
  | .send _ _ (.bootstrap _) _ => False
  | _ => True

theorem Call.isPlain_of_isReading {c : Call} (h : c.isReading) : c.isPlain := by
  cases c <;> simp_all [isReading, isPlain]

theorem Call.isPlain_of_isUpkeep {c : Call} (h : c.isUpkeep) : c.isPlain := by
  cases c <;> simp_all [isUpkeep, isPlain]

theorem Call.isPlain_of_isManagement {c : Call} (h : c.isManagement) : c.isPlain := by
  cases c with
  | send address secure request timeout =>
    cases request with
    | bootstrap endpoint => exact absurd h id
    | _ => exact trivial
  | _ => exact trivial

/-- The calls that move the lifecycle and tell of it. -/
def Call.isBookkeeping : Call → Prop
  | .log _ | .registration | .setRegistration _ => True
  | _ => False

theorem Call.isPlain_of_isBookkeeping {c : Call} (h : c.isBookkeeping) : c.isPlain := by
  cases c <;> simp_all [isBookkeeping, isPlain]

namespace Engine

variable {setup : Setup}

/-! ### Work without a Bootstrap request -/

theorem fire_bookkeeping (event : LifecycleEvent) :
    (fire event).Asks Call.isBookkeeping fun _ => True := by
  refine (Asks.perform trivial).bind fun r _ => ?_
  split
  · split
    · exact (Asks.log trivial).bind fun _ _ => Asks.perform trivial
    · exact Asks.perform trivial
  · exact Asks.log trivial

theorem plain_sequential : Sequential fun p => p.Asks Call.isPlain fun _ => True :=
  Sequential.asks (fun _ => trivial) fun _ => Call.isPlain_of_isUpkeep

theorem reads_plain {α : Type} {p : Program α} {post : α → Prop}
    (h : p.Asks Call.isReading post) : p.Asks Call.isPlain post :=
  h.mono (fun _ => Call.isPlain_of_isReading) fun _ h => h

theorem manages_plain {α : Type} {p : Program α} {post : α → Prop}
    (h : p.Asks Call.isManagement post) : p.Asks Call.isPlain post :=
  h.mono (fun _ => Call.isPlain_of_isManagement) fun _ h => h

theorem registerNow_plain (setup : Setup) :
    (registerNow setup).Asks Call.isPlain fun _ => True :=
  manages_plain (registerNow_manages setup)

/-! ### The Bootstrap request -/

/-- What a registration comes to once the server was asked for it. -/
def concludeRegister (setup : Setup) : Except Error (String × UInt64) → Program Bool
  | .ok (id, lifetime) => do
    log (.registeredAs id)
    modify fun r => { r with id := some id }
    planRenewal setup lifetime
    fire .registered
    return true
  | .error e => do
    log (.registrationFailed e)
    forget
    return false

theorem registerNow_eq (setup : Setup) :
    registerNow setup =
      fire .register >>= fun _ => sendRegister setup >>= concludeRegister setup := by
  unfold registerNow
  congr 1

/-- What a session comes to once it is over. -/
def concludeSession (setup : Setup) (finished : Bool) : Program Bool := do
  perform .closeSession
  if finished then
    log .bootstrapFinished
    registerNow setup
  else
    forget
    return false

/-- What a Bootstrap request leads to once it was answered. -/
def concludeBootstrap (setup : Setup) (answer : Option Response) : Program Bool :=
  awaitBootstrap setup answer >>= concludeSession setup

theorem awaitBootstrap_plain (setup : Setup) (answer : Option Response) :
    (awaitBootstrap setup answer).Asks Call.isPlain fun _ => True :=
  plain_sequential.awaitBootstrap (Asks.perform trivial) answer

theorem concludeSession_plain (setup : Setup) (finished : Bool) :
    (concludeSession setup finished).Asks Call.isPlain fun _ => True := by
  refine (Asks.perform trivial).bind fun _ _ => ?_
  split
  · exact (Asks.log trivial).bind fun _ _ => registerNow_plain setup
  · exact plain_sequential.forget.bind fun _ _ => trivial

/-- The session with a server that was opened just now, if there is one after a call. -/
def openedBy (opened : Option ServerInfo) : (c : Call) → c.Answer → Option ServerInfo
  | .openSession peer, answer => if answer then some peer else none
  | .log _, _ | .registration, _ | .setRegistration _, _ => opened
  | _, _ => none

/-- A Bootstrap request goes to the server with which a session was opened just now, and its
answer leads to the end of the session and then to what comes after. -/
def IsHeralded (setup : Setup) (after : Bool → Program Bool) (opened : Option ServerInfo) :
    (c : Call) → (c.Answer → Program Bool) → Prop
  | .send address _ (.bootstrap _) _, next =>
    (∃ peer, opened = some peer ∧ peer.address = some address) ∧
      ∀ answer, next answer = concludeBootstrap setup answer >>= after
  | _, _ => True

/-- Every Bootstrap request of a program is heralded, whatever the answers are. -/
def Heralds (setup : Setup) (after : Bool → Program Bool) :
    Option ServerInfo → Program Bool → Prop
  | _, .done _ => True
  | opened, .call c next =>
    IsHeralded setup after opened c next ∧ ∀ a, Heralds setup after (openedBy opened c a) (next a)

/-- A session was opened with a server just now. -/
def Fresh (g : Gate) (peer : ServerInfo) : Prop :=
  g.session = .active peer g.opened ∧ g.unclaimed = some ⟨g.opened, false⟩

variable {after : Bool → Program Bool} {opened : Option ServerInfo}

theorem isHeralded_of_isPlain {c : Call} (hc : c.isPlain) (next : c.Answer → Program Bool) :
    IsHeralded setup after opened c next := by
  cases c with
  | send address secure request timeout =>
    cases request with
    | bootstrap endpoint => exact absurd hc id
    | _ => exact trivial
  | _ => exact trivial

namespace Heralds

/-- Without a session opened before, no request counts on one. -/
theorem of_none {p : Program Bool} (h : Heralds setup after none p) (opened : Option ServerInfo) :
    Heralds setup after opened p := by
  induction p generalizing opened with
  | done value => exact trivial
  | call c next ih =>
    obtain ⟨hc, hnext⟩ := h
    have hplain : c.isPlain := by
      cases c with
      | send address secure request timeout =>
        cases request with
        | bootstrap endpoint =>
          obtain ⟨⟨peer, hpeer, -⟩, -⟩ := hc
          cases hpeer
        | _ => exact trivial
      | _ => exact trivial
    refine ⟨isHeralded_of_isPlain hplain next, fun a => ?_⟩
    have hkept : openedBy none c a = none ∨
        ∀ opened, openedBy opened c a = openedBy none c a := by
      cases c <;> simp [openedBy]
    rcases hkept with hnone | hsame
    · exact ih a (hnone ▸ hnext a) _
    · rw [hsame]
      exact hnext a

theorem bind {α : Type} {p : Program α} {f : α → Program Bool} {post : α → Prop}
    (hp : p.Asks Call.isPlain post) (hf : ∀ v, post v → Heralds setup after none (f v)) :
    Heralds setup after opened (p >>= f) := by
  induction p generalizing opened with
  | done value => exact (hf value hp).of_none opened
  | call c next ih => exact ⟨isHeralded_of_isPlain hp.1 _, fun a => ih a (hp.2 a)⟩

/-- What comes first in a program sends no Bootstrap request, and the rest heralds its own. -/
theorem seq {α : Type} {p : Program α} {f : α → Program Bool} {post : α → Prop}
    (hp : p.Asks Call.isPlain post)
    (hf : ∀ v, post v → Heralds setup after none (f v >>= after)) :
    Heralds setup after opened ((p >>= f) >>= after) := by
  rw [Program.bind_assoc]
  exact bind hp hf

theorem of_plain {p : Program Bool} {post : Bool → Prop} (hp : p.Asks Call.isPlain post)
    (hafter : ∀ v, Heralds setup after none (after v)) :
    Heralds setup after opened (p >>= after) :=
  bind hp fun v _ => hafter v

/-- Bookkeeping leaves an open session open. -/
theorem bind_bookkeeping {α : Type} {p : Program α} {f : α → Program Bool} {post : α → Prop}
    (hp : p.Asks Call.isBookkeeping post) (hf : ∀ v, post v → Heralds setup after opened (f v)) :
    Heralds setup after opened (p >>= f) := by
  induction p with
  | done value => exact hf value hp
  | call c next ih =>
    refine ⟨isHeralded_of_isPlain (Call.isPlain_of_isBookkeeping hp.1) _, fun a => ?_⟩
    have hkept : openedBy opened c a = opened := by
      cases c <;> first | rfl | exact absurd hp.1 id
    rw [hkept]
    exact ih a (hp.2 a)

theorem bootstrapNow (hafter : ∀ v, Heralds setup after none (after v)) :
    Heralds setup after opened (Engine.bootstrapNow setup >>= after) := by
  have hfound :=
    ((reads_plain (requireBootstrap_reads setup)).and (requireBootstrap_found setup)).mono
    (fun _ h => h.1) fun _ h => h.2
  refine seq hfound fun found haddress => ?_
  cases found with
  | error e => exact seq (Asks.log trivial) fun _ _ => hafter false
  | ok found =>
    obtain ⟨server, address⟩ := found
    refine ⟨trivial, fun answer => ?_⟩
    cases answer with
    | false => exact ⟨trivial, fun _ => hafter false |>.of_none _⟩
    | true =>
      change Heralds setup after (some server) ((Engine.fire .bootstrap >>= fun _ => _) >>= after)
      rw [Program.bind_assoc]
      refine bind_bookkeeping (fire_bookkeeping .bootstrap) fun _ _ => ?_
      refine ⟨⟨⟨server, rfl, haddress server address rfl⟩, fun answer => ?_⟩, fun answer => ?_⟩
      · rfl
      · change Heralds setup after none ((Engine.awaitBootstrap setup answer >>= fun finished =>
          Engine.concludeSession setup finished) >>= after)
        rw [Program.bind_assoc]
        refine bind (awaitBootstrap_plain setup answer) fun finished _ => ?_
        exact of_plain (concludeSession_plain setup finished) hafter

/-- All the work of a job but the bootstrapping is plain. -/
theorem combines (hafter : ∀ v, Heralds setup after none (after v)) :
    Combines setup (fun p => p.Asks Call.isPlain fun _ => True)
      fun p => Heralds setup after none (p >>= after) where
  toSequential := plain_sequential
  knowsManagement := reads_plain (knowsManagement_reads setup)
  sendRegister := manages_plain (manages setup).sendRegister
  sendUpdate id := manages_plain ((manages setup).sendUpdate id)
  deregisterNow := manages_plain (manages setup).deregisterNow
  ofPart hp := of_plain hp hafter
  andThen hp hf := seq hp fun value _ => hf value
  bootstrapNow := bootstrapNow hafter

/-- Work that goes on by itself comes to a Bootstrap request only where it has just opened a
session. -/
theorem proceed {p : Program Bool} (h : Heralds setup after opened p) (holds : Bool)
    (client : Client Service.Task)
    (hfresh : ∀ peer, opened = some peer → Fresh client.gate peer) :
    ∃ opened', Heralds setup after opened' (Service.proceed holds p client).rest ∧
      ∀ peer, opened' = some peer → Fresh (Service.proceed holds p client).client.gate peer := by
  induction p generalizing holds client opened with
  | done value => exact ⟨opened, trivial, hfresh⟩
  | call c next ih =>
    by_cases hrelease : c = .release
    · subst hrelease
      exact ⟨none, h.2 (), by simp⟩
    · cases hreply : client.answer? .work c with
      | none =>
        rw [Service.proceed_of_none hrelease hreply]
        exact ⟨opened, h, hfresh⟩
      | some reply =>
        rw [Service.proceed_of_reply hreply]
        refine ih reply.answer (h.2 reply.answer) holds reply.client ?_
        intro peer hopened
        cases c with
        | openSession server =>
          cases hreply
          change (if (client.gate.tryOpen server).result = true then some server else none) = _
            at hopened
          split at hopened
          · rename_i hresult
            cases hopened
            by_cases hclosed : client.gate.session = .closed
            · change Fresh (client.gate.tryOpen peer).gate peer
              rw [(Gate.tryOpen_of_closed hclosed peer).1]
              exact ⟨rfl, rfl⟩
            · rw [(Gate.tryOpen_of_not_closed hclosed peer).2] at hresult
              cases hresult
          · cases hopened
        | log line =>
          cases hreply
          exact hfresh peer hopened
        | registration =>
          cases hreply
          exact hfresh peer hopened
        | setRegistration registration =>
          cases hreply
          exact hfresh peer hopened
        | _ => cases hopened

end Heralds
end Engine

/-- Every Bootstrap request of a job is heralded. -/
theorem Service.Job.heralds_body (setup : Engine.Setup) (job : Service.Job) :
    Engine.Heralds setup job.close none (job.body setup >>= job.close) := by
  have hclose : ∀ result, Engine.Heralds setup job.close none (job.close result) := by
    refine fun result => ⟨trivial, fun _ => ?_⟩
    unfold Service.Job.coda
    split
    · exact ⟨trivial, fun _ => trivial⟩
    · exact trivial
  exact job.body_of_combines (Engine.Heralds.combines hclose)

end Lwm2mClient
