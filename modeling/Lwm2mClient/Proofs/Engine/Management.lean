import Lwm2mClient.Proofs.Engine.Parts

/-!
The parts of lifecycle work that concern the device management server alone. They read the
store, keep the registration up and send Register, Update and Deregister requests;
sessions are none of their business.
-/
namespace Lwm2mClient

open Program

/-- The calls that have to do with a registration, not with a bootstrap session. -/
def Call.isManagement : Call → Prop
  | .send _ _ (.bootstrap _) _ => False
  | .log _ | .objectIds | .readObject _ | .send .. | .registration
    | .setRegistration _ | .schedule ..
  | .cancelTask _ => True
  | _ => False

theorem Call.isManagement_of_isReading {c : Call} (h : c.isReading) : c.isManagement := by
  cases c <;> first | exact trivial | exact absurd h id

theorem Call.isManagement_of_isUpkeep {c : Call} (h : c.isUpkeep) : c.isManagement := by
  cases c <;> first | exact trivial | exact absurd h id

namespace Engine

theorem reads_manages {α : Type} {p : Program α} {post : α → Prop}
    (h : p.Asks Call.isReading post) : p.Asks Call.isManagement post :=
  h.mono (fun _ => Call.isManagement_of_isReading) fun _ h => h

theorem upkeep_manages {α : Type} {p : Program α} {post : α → Prop}
    (h : p.Asks Call.isUpkeep post) : p.Asks Call.isManagement post :=
  h.mono (fun _ => Call.isManagement_of_isUpkeep) fun _ h => h

theorem forget_manages :
    forget.Asks Call.isManagement fun _ => True := upkeep_manages forget_upkeep

theorem manages (setup : Setup) :
    Manages setup fun p => p.Asks Call.isManagement fun _ => True where
  toSequential := Sequential.asks (fun _ => trivial) fun _ => Call.isManagement_of_isUpkeep
  requireManagement :=
    (reads_manages (requireManagement_reads setup)).mono (fun _ h => h) fun _ _ => trivial
  describeObjects := reads_manages describeObjects_reads
  ask server request hrequest := ask_asks (fun _ => trivial) fun address => by
    cases request with
    | bootstrap endpoint => exact absurd rfl (hrequest endpoint)
    | _ => exact trivial

theorem registerNow_manages (setup : Setup) :
    (registerNow setup).Asks Call.isManagement fun _ => True :=
  (manages setup).registerNow (manages setup).sendRegister

/-- Beside management there are the sessions and the requests that begin them. -/
theorem combines_asks {calls : Call → Prop} (hmanagement : ∀ c, c.isManagement → calls c)
    (hgate : ∀ c, c.isOfGate → calls c)
    (hsend : ∀ peer secure endpoint timeout,
      calls (.send peer secure (.bootstrap endpoint) timeout)) (setup : Setup) :
    Combines setup (fun p => p.Asks calls fun _ => True) fun p => p.Asks calls fun _ => True := by
  have hmanages : ∀ {α : Type} {p : Program α} {mid : α → Prop}, p.Asks Call.isManagement mid →
      p.Asks calls fun _ => True :=
    fun hp => hp.mono hmanagement fun _ _ => trivial
  have hsequential : Sequential fun p => p.Asks calls fun _ => True :=
    Sequential.asks (fun _ => hmanagement _ trivial) fun c hc =>
      hmanagement c (Call.isManagement_of_isUpkeep hc)
  exact {
    toSequential := hsequential
    knowsManagement := hmanages (reads_manages (knowsManagement_reads setup))
    sendRegister := hmanages (manages setup).sendRegister
    sendUpdate := fun id => hmanages ((manages setup).sendUpdate id)
    deregisterNow := hmanages (manages setup).deregisterNow
    ofPart := id
    andThen := hsequential.bind
    bootstrapNow := hsequential.bootstrapNow
      (hmanages (reads_manages (requireBootstrap_reads setup)))
      (fun _ _ _ _ => Asks.perform (hsend _ _ _ _)) (fun c hc => Asks.perform (hgate c hc))
      (hmanages (registerNow_manages setup)) }

end Engine
end Lwm2mClient
