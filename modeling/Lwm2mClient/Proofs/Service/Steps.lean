import Lwm2mClient.Proofs.Service.Ensures

/-!
The steps of lifecycle work that concern the state of the client alone, as functions of the scene.
-/
namespace Lwm2mClient.Service

open Net Engine

namespace Scene

def setRegistration (s : Scene) (r : Registration) : Scene :=
  { s with client := { s.client with registration := r } }

/-- An event was fired. -/
def fire (s : Scene) (event : LifecycleEvent) : Scene :=
  match s.client.registration.lifecycle.step? event with
  | some next => s.setRegistration { s.client.registration with lifecycle := next }
  | none => { s with ledger := { s.ledger with surprised := true } }

def cancelAny (s : Scene) : Option TaskHandle → Scene
  | some handle =>
    { s with client := { s.client with scheduler := s.client.scheduler.cancel handle } }
  | none => s

/-- The renewal was cancelled. -/
def cancelRenewal (s : Scene) : Scene :=
  (s.setRegistration
    { s.client.registration with
      generation := s.client.registration.generation + 1, renewal := none }).cancelAny
    s.client.registration.renewal

/-- A renewal was scheduled in place of the one that was pending. -/
def planRenewal (s : Scene) (delay : Duration) : Scene :=
  let generation := s.client.registration.generation + 1
  let planned := s.client.scheduler.schedule delay (.work (.renewal generation))
  { s with
    client :=
      { s.client with
        registration := { s.client.registration with generation, renewal := some planned.1 }
        scheduler := planned.2 } }.cancelAny s.client.registration.renewal

/-- The renewal was cancelled, and another id may be held. -/
def withoutRenewal (s : Scene) (id : Option String) : Scene :=
  (s.setRegistration { s.client.registration with id }).cancelRenewal

/-- The registration was given up. -/
def forget (s : Scene) : Scene := (s.withoutRenewal none).fire .lost

theorem fire_of_step {s : Scene} {event : LifecycleEvent} {next : Lifecycle}
    (h : s.client.registration.lifecycle.step? event = some next) :
    s.fire event = s.setRegistration { s.client.registration with lifecycle := next } := by
  unfold fire
  rw [h]

theorem fire_of_surprise {s : Scene} {event : LifecycleEvent}
    (h : s.client.registration.lifecycle.step? event = none) :
    s.fire event = { s with ledger := { s.ledger with surprised := true } } := by
  unfold fire
  rw [h]

theorem cancelAny_registration (s : Scene) (handle : Option TaskHandle) :
    (s.cancelAny handle).client.registration = s.client.registration := by
  cases handle <;> rfl

theorem withoutRenewal_registration (s : Scene) (id : Option String) :
    (s.withoutRenewal id).client.registration =
      { s.client.registration with
        id, generation := s.client.registration.generation + 1, renewal := none } :=
  cancelAny_registration _ _

theorem cancelRenewal_id (s : Scene) :
    s.cancelRenewal.client.registration.id = s.client.registration.id := by
  unfold cancelRenewal
  rw [cancelAny_registration]
  rfl

theorem cancelAny_ledger (s : Scene) (handle : Option TaskHandle) :
    (s.cancelAny handle).ledger = s.ledger := by
  cases handle <;> rfl

theorem withoutRenewal_ledger (s : Scene) (id : Option String) :
    (s.withoutRenewal id).ledger = s.ledger :=
  cancelAny_ledger _ _

theorem planRenewal_lifecycle (s : Scene) (delay : Duration) :
    (s.planRenewal delay).client.registration.lifecycle = s.client.registration.lifecycle := by
  unfold planRenewal
  rw [cancelAny_registration]

theorem planRenewal_id (s : Scene) (delay : Duration) :
    (s.planRenewal delay).client.registration.id = s.client.registration.id := by
  unfold planRenewal
  rw [cancelAny_registration]

theorem planRenewal_ledger (s : Scene) (delay : Duration) :
    (s.planRenewal delay).ledger = s.ledger :=
  cancelAny_ledger _ _

end Scene

variable {hosts : Hosts} {wait : Scene → Prop} {s : Scene}

theorem note_reported {line : Log.Line} (h : isSurprise line = false) (l : Ledger) :
    l.note hosts (.reported line) = l := by
  cases line <;> simp_all [isSurprise, Ledger.note]

/-- No line tells of an event that the lifecycle did not expect. -/
def Calm (lines : List Log.Line) : Prop := ∀ line ∈ lines, isSurprise line = false

theorem calm_nil : Calm [] := by
  intro line hline
  cases hline

theorem calm_singleton {line : Log.Line} (h : isSurprise line = false) : Calm [line] := by
  intro x hx
  rwa [List.mem_singleton.mp hx]

theorem foldl_note_of_calm {lines : List Log.Line} (h : Calm lines) (l : Ledger) :
    lines.foldl (fun l line => l.note hosts (.reported line)) l = l := by
  induction lines with
  | nil => rfl
  | cons line rest ih =>
    rw [List.foldl_cons, note_reported (h line List.mem_cons_self)]
    exact ih fun x hx => h x (List.mem_cons_of_mem line hx)

theorem report_of_calm {lines : List Log.Line} (h : Calm lines) : s.report hosts lines = s := by
  unfold Scene.report
  rw [foldl_note_of_calm h]

namespace Ensures

theorem log {line : Log.Line} {post : Unit → Scene → Prop} (hline : isSurprise line = false)
    (h : post () s) : Ensures hosts wait (Program.log line) post s := by
  change post () (s.report hosts [line])
  rwa [report_of_calm (calm_singleton hline)]

theorem registration {post : Registration → Scene → Prop} (h : post s.client.registration s) :
    Ensures hosts wait Engine.registration post s := h

theorem setRegistration {r : Registration} {post : Unit → Scene → Prop}
    (h : post () (s.setRegistration r)) :
    Ensures hosts wait (Program.perform (.setRegistration r)) post s := h

theorem modify {f : Registration → Registration} {post : Unit → Scene → Prop}
    (h : post () (s.setRegistration (f s.client.registration))) :
    Ensures hosts wait (Engine.modify f) post s := by
  refine bind ?_
  apply registration
  exact setRegistration h

theorem fire {event : LifecycleEvent} {post : Unit → Scene → Prop} (h : post () (s.fire event)) :
    Ensures hosts wait (Engine.fire event) post s := by
  refine bind ?_
  apply registration
  cases hstep : s.client.registration.lifecycle.step? event with
  | none =>
    rw [Scene.fire_of_surprise hstep] at h
    exact h
  | some next =>
    rw [Scene.fire_of_step hstep] at h
    dsimp only
    split
    · refine bind ?_
      apply log rfl
      exact setRegistration h
    · exact setRegistration h

theorem cancelAny {handle : Option TaskHandle} {post : Unit → Scene → Prop}
    (h : post () (s.cancelAny handle)) : Ensures hosts wait (Engine.cancelAny handle) post s := by
  cases handle with
  | none => exact h
  | some handle => exact h

theorem cancelRenewal {post : Unit → Scene → Prop} (h : post () s.cancelRenewal) :
    Ensures hosts wait Engine.cancelRenewal post s := by
  refine bind ?_
  apply registration
  refine bind ?_
  apply setRegistration
  exact cancelAny h

theorem planRenewal {setup : Setup} {lifetime : UInt64} {post : Unit → Scene → Prop}
    (h : post () (s.planRenewal (renewalDelay setup.settings lifetime))) :
    Ensures hosts wait (Engine.planRenewal setup lifetime) post s := by
  refine bind ?_
  apply log rfl
  refine bind ?_
  apply modify
  refine bind ?_
  apply registration
  -- The timeline answers at once, so scheduling is no wait.
  refine bind ?_
  refine bind ?_
  apply setRegistration
  exact cancelAny h

theorem forget {post : Unit → Scene → Prop} (h : post () s.forget) :
    Ensures hosts wait Engine.forget post s := by
  refine bind ?_
  apply modify
  refine bind ?_
  apply cancelRenewal
  exact fire h

end Ensures
end Lwm2mClient.Service
