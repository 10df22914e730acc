import Lwm2mClient.Proofs.Service.Bearings
import Lwm2mClient.Proofs.Service.Coherence

/-!
What a single operation leaves behind, however the operations before it have ended. The renewal is
cancelled before the first call that can fail and is planned anew after the last, so a failure in
between leaves a registration that nobody will renew, unless it was lost by then. An operation
that succeeds leaves a registration under an id, but not every lifecycle in which an abandoned
operation was stuck expects to be told of it.
-/
namespace Lwm2mClient.Service

open Net Engine Program

variable {setup : Setup} {inputs : List Input} {job : Job} {s s' : Service}

/-- An execution as a monitor of its registration sees it, which begins where
nothing has happened yet. -/
theorem Executes.bearing (hexecutes : Executes setup job s s') (bare : Bool)
    {post : Bool → Bearing → Prop}
    (hkeeps : (job.body setup).Keeps (Service.bearing bare) post
      { registration := s.client.registration }) :
    Completed (Bearing.IsAt s.history) (fun _ => post) job s' ∨
      Abandoned (Service.bearing bare) (Bearing.IsAt s.history) job s' := by
  have hbegins :
      Bearing.IsAt s.history { registration := s.client.registration } s.client s.history :=
    ⟨rfl, nofun, [], rfl, rfl, rfl, rfl⟩
  exact (Bearing.sees bare s.history).executes
    (Bearing.listens bare s.history) hexecutes hbegins hkeeps

/-! ### Renewals -/

/-- No registration is held, or a renewal is pending for the one that is. -/
def Tended (s : Service) : Prop :=
  s.client.registration.id = none ∨
    ∃ e ∈ s.client.scheduler.entries, e.task = .work (.renewal s.client.registration.generation)

instance (s : Service) : Decidable (Tended s) :=
  inferInstanceAs (Decidable (_ ∨ ∃ e ∈ s.client.scheduler.entries, _))

/-- Where a renewal has come to its end, the one that it has planned is pending. -/
theorem Bearing.IsAt.tended {x : Bearing} {before : List Event} {history : List Event}
    {t : Timeline Task} (hx : x.IsAt before s.client history)
    (hends : x.registration.id = none ∨ x.planned = some x.registration.generation)
    (ht : s.client.scheduler = .timeline t) (hopen : t.shutDown = false) : Tended s := by
  rcases hends with hid | hplanned
  · exact Or.inl (hx.registration ▸ hid)
  · obtain ⟨e, he, htask⟩ := hx.planned _ hplanned t ht hopen
    refine Or.inr ⟨e, ?_, hx.registration ▸ htask⟩
    rw [ht]
    exact he

/-- Where a renewal is abandoned, it has cancelled the one before and planned none. -/
theorem Bearing.IsAt.tended_iff_lost {x : Bearing} {before : List Event} {history : List Event}
    {t : Timeline Task} (hx : x.IsAt before s.client history) (hask : x.MayAsk true)
    (hbacked : Backed t s.client.registration) (ht : s.client.scheduler = .timeline t) :
    Tended s ↔ x.lost = true := by
  constructor
  · rintro (hid | ⟨e, he, htask⟩)
    · exact hask.held rfl (hx.registration ▸ hid)
    · rw [ht] at he
      have hrenewal := (hbacked.renewals e he (by rw [htask]; rfl)).1
      cases hrenewal.symm.trans (hx.registration ▸ hask.renewal rfl)
  · intro hlost
    exact Or.inl (hx.registration ▸ hask.lost hlost)

/-- A renewal that is executed on a timeline leaves the registration tended just if no call failed
in it or it had lost the registration by then. -/
theorem tended_iff {due : Duration} {number : Nat} {t : Timeline Task}
    (hrun : run setup (initial (.timeline {})) inputs = some s)
    (hexecutes :
      Executes setup (.task due number (.renewal s.client.registration.generation)) s s')
    (ht : s'.client.scheduler = .timeline t) (hopen : t.shutDown = false) :
    ∃ since, s'.history = since ++ s.history ∧
      (Tended s' ↔ Unfailing since ∨ ∃ e ∈ since, e.isLoss = true) := by
  have hinv : Inv setup s := Inv.of_run (Or.inl rfl) hrun
  let x₀ : Bearing := { registration := s.client.registration }
  have hkeeps :
      ((Job.task due number (.renewal s.client.registration.generation)).body setup).Keeps
        (bearing true)
      (fun _ x => x.registration.id = none ∨ x.planned = some x.registration.generation) x₀ :=
    Bearing.keeps_renew ⟨rfl, rfl, rfl, rfl⟩ (hinv.resting hexecutes.idle).fits.2.1
      (fun x hid => Or.inl hid)
      fun x _ hplanned => Or.inr hplanned
  rcases hexecutes.bearing true hkeeps with ⟨result, x, history, hx, hends, hhistory⟩ |
    ⟨c, x, history, hasked, hpermits, hx, hhistory⟩
  · obtain ⟨own, rfl, -⟩ := hx.since
    have hunfailing := hexecutes.unfailing_of_ended hhistory
    exact ⟨_, hhistory, iff_of_true (hx.tended hends ht hopen) (Or.inl hunfailing)⟩
  · have hbacked : Backed t s'.client.registration :=
      ((hexecutes.inv hinv).resting hexecutes.idle_after).sound.backed t ht
    have hlost := hx.tended_iff_lost (.of_permits hpermits hasked) hbacked ht
    obtain ⟨own, rfl, hown, -⟩ := hx.since
    rw [← hown, List.any_eq_true] at hlost
    refine ⟨.failed _ c :: own, hhistory, hlost.trans ⟨?_, ?_⟩⟩
    · rintro ⟨e, he, hloss⟩
      exact Or.inr ⟨e, List.mem_cons_of_mem _ he, hloss⟩
    · rintro (hunfailing | ⟨e, he, hloss⟩)
      · cases hunfailing _ List.mem_cons_self
      · rcases List.mem_cons.mp he with rfl | he
        · cases hloss
        · exact ⟨e, he, hloss⟩

/-- What comes of the renewal that waits first, where it has its turn and is done after some
inputs, on a timeline that is not shut down. -/
def runRenewal (setup : Setup) (s : Service) (inputs : List Input) : Option Service :=
  (runFirst setup s inputs).bind fun (job, s') =>
    if job.taken?.map (·.task) = some (.work (.renewal s.client.registration.generation)) ∧
        s'.client.scheduler.now?.isSome ∧ s'.client.scheduler.isShut = false then some s'
    else none

theorem executes_of_runRenewal (hinv : Inv setup s) (h : runRenewal setup s inputs = some s') :
    ∃ due number t,
      Executes setup (.task due number (.renewal s.client.registration.generation)) s s' ∧
      s'.client.scheduler = .timeline t ∧ t.shutDown = false := by
  obtain ⟨⟨job, s₁⟩, hfirst, h⟩ := Option.bind_eq_some_iff.mp h
  dsimp only at h
  split at h
  · rename_i hcheck
    cases h
    obtain ⟨htask, hvirtual, hopen⟩ := hcheck
    have hexecutes := Executes.of_runFirst hinv hfirst
    cases job with
    | operation o => cases htask
    | task due number work =>
      cases htask
      cases ht : s'.client.scheduler with
      | timeline t =>
        rw [ht] at hopen
        exact ⟨due, number, t, hexecutes, rfl, hopen⟩
      | worker w =>
        rw [ht] at hvirtual
        cases hvirtual
  · cases h

/-- The engine registers, and its renewal is taken out. -/
def registeringUntilDue : List Input := registering 30 ++ [.take .max]

/-- The server does not answer the update, and the store cannot be read when the
engine goes on to bootstrap. -/
def losing : List Input :=
  [.answer (.object (some sampleSecurities)), .answer (.object (some (sampleServers 30))),
    .answer (.response none), .fail]

theorem tended_once_lost :
    ∃ s s' due number t, run sampleSetup (initial (.timeline {})) registeringUntilDue = some s ∧
      Executes sampleSetup (.task due number (.renewal s.client.registration.generation)) s s' ∧
      s'.client.scheduler = .timeline t ∧ t.shutDown = false ∧
      ¬Unfailing s'.history ∧ Tended s' := by
  have hpossible : (run sampleSetup (initial (.timeline {})) registeringUntilDue).any fun s =>
      (runRenewal sampleSetup s losing).any fun s' =>
        decide (¬Unfailing s'.history ∧ s'.history.any Event.isLoss ∧
          s.history.any Event.isLoss = false) := by
    decide +kernel
  obtain ⟨s, hrun, hcheck⟩ := (Option.any_eq_true _ _).mp hpossible
  obtain ⟨s', hrenewal, hcheck⟩ := (Option.any_eq_true _ _).mp hcheck
  obtain ⟨hfailed, hlost, hheld⟩ := of_decide_eq_true hcheck
  obtain ⟨due, number, t, hexecutes, ht, hopen⟩ :=
    executes_of_runRenewal (Inv.of_run (Or.inl rfl) hrun) hrenewal
  obtain ⟨since, hsince, htended⟩ := tended_iff hrun hexecutes ht hopen
  rw [hsince, List.any_append, hheld, Bool.or_false] at hlost
  have hloss : ∃ e ∈ since, e.isLoss = true := List.any_eq_true.mp hlost
  exact ⟨s, s', due, number, t, hrun, hexecutes, ht, hopen, hfailed, htended.mpr (Or.inr hloss)⟩

/-- The Update request fails. -/
def failingUpdate : List Input :=
  [.answer (.object (some sampleSecurities)), .answer (.object (some (sampleServers 30))), .fail]

/-- A renewal is the last one when its Update request fails, although the
registration is still held. -/
theorem untended_after_failed_update :
    ∃ s s' due number t, run sampleSetup (initial (.timeline {})) registeringUntilDue = some s ∧
      Executes sampleSetup (.task due number (.renewal s.client.registration.generation)) s s' ∧
      s'.client.scheduler = .timeline t ∧ t.shutDown = false ∧ ¬Tended s' := by
  have hpossible : (run sampleSetup (initial (.timeline {})) registeringUntilDue).any fun s =>
      (runRenewal sampleSetup s failingUpdate).any fun s' => decide (¬Tended s') := by
    decide +kernel
  obtain ⟨s, hrun, hcheck⟩ := (Option.any_eq_true _ _).mp hpossible
  obtain ⟨s', hrenewal, huntended⟩ := (Option.any_eq_true _ _).mp hcheck
  obtain ⟨due, number, t, hexecutes, ht, hopen⟩ :=
    executes_of_runRenewal (Inv.of_run (Or.inl rfl) hrun) hrenewal
  exact ⟨s, s', due, number, t, hrun, hexecutes, ht, hopen, of_decide_eq_true huntended⟩

/-! ### Successes -/

/-- An operation that succeeds leaves the lifecycle where it found it. While deregistering it is
only freed by an attempt to bootstrap, and while bootstrapping it does not expect an update. -/
def Strands (lifecycle : Lifecycle) (since : List Event) : Prop :=
  lifecycle = .deregistering ∧ (∀ e ∈ since, e.bootstraps = false) ∨
    lifecycle = .bootstrapping ∧ ∃ e ∈ since, e.refreshes = true

theorem Bearing.sticks_iff {x : Bearing} {lifecycle : Lifecycle} {since : List Event}
    (hrefreshed : since.any Event.refreshes = x.refreshed)
    (hbootstrapped : since.any Event.bootstraps = x.bootstrapped) :
    x.Sticks lifecycle ↔ Strands lifecycle since := by
  rw [Bearing.Sticks, Strands, ← hrefreshed, ← hbootstrapped, List.any_eq_true, List.any_eq_false]
  simp only [Bool.not_eq_true]

/-- Whichever operation it is that succeeds in obtaining a registration, it comes to the same. -/
theorem Bearing.keeps_succeeded {x : Bearing} {o : Operation} (hx : x.Fresh)
    (hfits : x.registration.lifecycle = .unregistered → x.registration.id = none)
    (ho : o = .register ∨ o = .update ∨ o = .bootstrap) :
    ((Job.operation o).body setup).Keeps (bearing false)
      (fun result x' => result = true → x'.Succeeded x.registration.lifecycle) x := by
  have hask : x.MayAsk false := by
    refine ⟨hx.planned, fun hlost => ?_, nofun, nofun⟩
    cases hx.lost.symm.trans hlost
  rcases ho with rfl | rfl | rfl
  · exact keeps_registerNow hask nofun fun id handle _ =>
      succeeded_of_granted hx.refreshed hx.bootstrapped _ id handle
  · exact keeps_updateNow hx hfits nofun fun x' hx' _ _ => hx'
  · exact keeps_bootstrapNow hask nofun nofun fun id handle _ =>
      succeeded_of_bootstrapped hx.refreshed _ id handle

/-- An operation that succeeds leaves a registration under an id, whatever has failed
before it. The lifecycle tells so as well, unless an operation that was abandoned has
left it where it is stranded. -/
theorem registered_of_success {scheduler : Scheduler Task} {o : Operation}
    (hfresh : scheduler = .timeline {} ∨ scheduler = .worker {})
    (hrun : run setup (initial scheduler) inputs = some s)
    (ho : o = .register ∨ o = .update ∨ o = .bootstrap)
    (hexecutes : Executes setup (.operation o) s s')
    (hsuccess : s'.history.head? = some (.ended (.operation o) true)) :
    s'.client.registration.id ≠ none ∧ ∃ since, s'.history = since ++ s.history ∧
      (Strands s.client.registration.lifecycle since →
        s'.client.registration.lifecycle = s.client.registration.lifecycle) ∧
      (¬Strands s.client.registration.lifecycle since →
        s'.client.registration.lifecycle = .registered) := by
  have hinv : Inv setup s := Inv.of_run hfresh hrun
  let x₀ : Bearing := { registration := s.client.registration }
  have hkeeps : ((Job.operation o).body setup).Keeps (bearing false)
      (fun result x => result = true → x.Succeeded x₀.registration.lifecycle) x₀ :=
    Bearing.keeps_succeeded ⟨rfl, rfl, rfl, rfl⟩ (hinv.resting hexecutes.idle).fits.2.1 ho
  rcases hexecutes.bearing false hkeeps with ⟨result, x, history, hx, hends, hhistory⟩ |
    ⟨c, x, history, -, -, -, hhistory⟩
  · rw [hhistory] at hsuccess
    cases hsuccess
    obtain ⟨since, hsince, -, hrefreshed, hbootstrapped⟩ :=
      (hx.hear (.ended (.operation o) true)).since
    have hstrands : x.Sticks s.client.registration.lifecycle ↔
        Strands s.client.registration.lifecycle since :=
      Bearing.sticks_iff hrefreshed hbootstrapped
    obtain ⟨hheld, hstuck, hregistered⟩ := hends rfl
    rw [hx.registration]
    exact ⟨hheld, since, hhistory.trans hsince, fun h => hstuck (hstrands.mpr h),
      fun h => hregistered (mt hstrands.mp h)⟩
  · rw [hhistory] at hsuccess
    cases hsuccess

/-- The operation that waits first succeeds, where it has its turn and is done after some
inputs. -/
def succeedsFirst (setup : Setup) (s : Service) (o : Operation) (inputs : List Input)
    (p : Registration → Bool) : Bool :=
  (runFirst setup s inputs).any fun (job, s') =>
    decide (job = .operation o) && s'.hasEnded o true && p s'.client.registration

theorem executes_of_succeedsFirst {o : Operation} {answers : List Input} {p : Registration → Bool}
    (hinv : Inv setup s) (h : succeedsFirst setup s o answers p = true) :
    ∃ s', Executes setup (.operation o) s s' ∧
      s'.history.head? = some (.ended (.operation o) true) ∧
      p s'.client.registration = true := by
  obtain ⟨⟨job, s'⟩, hfirst, hcheck⟩ := (Option.any_eq_true _ _).mp h
  simp only [Bool.and_eq_true_iff, decide_eq_true_eq] at hcheck
  obtain ⟨⟨rfl, hended⟩, hp⟩ := hcheck
  exact ⟨s', .of_runFirst hinv hfirst, head?_of_hasEnded hended, hp⟩

/-- The server accepts an update. -/
def accepting : List Input :=
  [.answer (.object (some sampleSecurities)), .answer (.object (some (sampleServers 30))),
    .answer (.response (some ⟨.changed, none⟩))]

theorem registered_once_updated :
    ∃ s s', run sampleSetup (initial (.timeline {}))
      (failingAgain ++ [.operate .update]) = some s ∧
      s.client.registration.lifecycle = .registering ∧
      Executes sampleSetup (.operation .update) s s' ∧
      s'.history.head? = some (.ended (.operation .update) true) ∧
      s'.client.registration.id ≠ none ∧
      s'.client.registration.lifecycle = .registered := by
  have hpossible :
      (run sampleSetup (initial (.timeline {})) (failingAgain ++ [.operate .update])).any fun s =>
      decide (s.client.registration.lifecycle = .registering) &&
        succeedsFirst sampleSetup s .update accepting fun _ => true := by
    decide +kernel
  obtain ⟨s, hrun, hcheck⟩ := (Option.any_eq_true _ _).mp hpossible
  obtain ⟨hlifecycle, hsucceeds⟩ := Bool.and_eq_true_iff.mp hcheck
  have hregistering : s.client.registration.lifecycle = .registering :=
    of_decide_eq_true hlifecycle
  obtain ⟨s', hexecutes, hsuccess, -⟩ :=
    executes_of_succeedsFirst (Inv.of_run (Or.inl rfl) hrun) hsucceeds
  obtain ⟨hid, since, -, -, hregistered⟩ :=
    registered_of_success (Or.inl rfl) hrun (Or.inr (Or.inl rfl)) hexecutes hsuccess
  refine ⟨s, s', hrun, hregistering, hexecutes, hsuccess, hid, hregistered ?_⟩
  rw [hregistering]
  simp [Strands]

/-- The engine registers, its Deregister request fails, and it is asked to register again. -/
def registeringAfterFailure : List Input :=
  registering 30 ++ [.operate .deregister, .turn 0, .answer (.object (some sampleSecurities)),
    .answer (.object (some (sampleServers 30))), .fail, .operate .register]

/-- The server grants another registration. -/
def granting : List Input :=
  [.answer (.object (some sampleSecurities)), .answer (.object (some (sampleServers 30))),
    .answer (.ids []), .answer (.response (some ⟨.created, some "s"⟩))]

/-- A client whose Deregister request failed is deregistering for good, also when it has
registered anew. -/
theorem deregistering_although_registered :
    ∃ s s', run sampleSetup (initial (.timeline {})) registeringAfterFailure = some s ∧
      Executes sampleSetup (.operation .register) s s' ∧
      s'.history.head? = some (.ended (.operation .register) true) ∧
      s'.client.registration.id = some "s" ∧
      s'.client.registration.lifecycle = .deregistering := by
  have hpossible : (run sampleSetup (initial (.timeline {})) registeringAfterFailure).any fun s =>
      succeedsFirst sampleSetup s .register granting fun r =>
        decide (r.id = some "s" ∧ r.lifecycle = .deregistering) := by
    decide +kernel
  obtain ⟨s, hrun, hsucceeds⟩ := (Option.any_eq_true _ _).mp hpossible
  obtain ⟨s', hexecutes, hsuccess, hends⟩ :=
    executes_of_succeedsFirst (Inv.of_run (Or.inl rfl) hrun) hsucceeds
  exact ⟨s, s', hrun, hexecutes, hsuccess, of_decide_eq_true hends⟩

end Lwm2mClient.Service
