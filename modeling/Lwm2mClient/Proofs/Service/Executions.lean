import Lwm2mClient.Proofs.Service.Monitored
import Lwm2mClient.Proofs.Service.Runs

/-!
Executions of single jobs. A job that has its turn goes on, whatever happens aside, until no
operation is in progress any more. Then either it has come to its end or it was abandoned in a
call that failed. What a monitor tells of an execution it tells from where the job has its turn,
so it does not matter what has failed before.
-/
namespace Lwm2mClient.Service

open Engine

/-- The operation in progress goes on until none is in progress. -/
inductive Finishes (setup : Setup) : Service → Service → Prop
  | idle {s : Service} (hidle : s.current = none) : Finishes setup s s
  | next {s s₁ s' : Service} {input : Input} (hbusy : s.current ≠ none)
      (hstep : step setup s input = some s₁) (hrest : Finishes setup s₁ s') : Finishes setup s s'

/-- A waiting job has its turn and goes on until no operation is in progress. -/
structure Executes (setup : Setup) (job : Job) (s s' : Service) : Prop where
  idle : s.current = none
  turns : ∃ index s₁, s.waiting[index]? = some ⟨job, job.pending setup⟩ ∧
    step setup s (.turn index) = some s₁ ∧ Finishes setup s₁ s'

section

variable {setup : Setup} {job : Job} {s s' : Service}

theorem Finishes.eq_of_idle (h : Finishes setup s s') (hidle : s.current = none) : s' = s := by
  cases h with
  | idle => rfl
  | next hbusy => exact absurd hidle hbusy

theorem Finishes.idle_after (h : Finishes setup s s') : s'.current = none := by
  induction h with
  | idle hidle => exact hidle
  | next _ _ _ ih => exact ih

theorem Executes.idle_after (h : Executes setup job s s') : s'.current = none := by
  obtain ⟨-, index, s₁, -, -, hfinishes⟩ := h
  exact hfinishes.idle_after

/-- Runs a service over inputs, each of which finds an operation in progress, until none is. -/
def runOut (setup : Setup) (s : Service) : List Input → Option Service
  | [] => if s.current.isNone then some s else none
  | input :: rest => if s.current.isNone then none else (step setup s input).bind fun s =>
    runOut setup s rest

theorem Finishes.of_runOut {inputs : List Input} (h : runOut setup s inputs = some s') :
    Finishes setup s s' := by
  induction inputs generalizing s with
  | nil =>
    rw [runOut] at h
    split at h
    · rename_i hidle
      cases h
      exact .idle (Option.isNone_iff_eq_none.mp hidle)
    · cases h
  | cons input rest ih =>
    rw [runOut] at h
    split at h
    · cases h
    · rename_i hbusy
      obtain ⟨s₁, hstep, hrest⟩ := Option.bind_eq_some_iff.mp h
      exact .next (fun hidle => hbusy (Option.isNone_iff_eq_none.mpr hidle)) hstep (ih hrest)

/-- The job that waits first and what comes of it, where it has its turn and is done after some
inputs. -/
def runFirst (setup : Setup) (s : Service) (inputs : List Input) : Option (Job × Service) :=
  s.waiting[0]?.bind fun thread => if s.current.isNone then
    (step setup s (.turn 0)).bind fun s₁ => (runOut setup s₁ inputs).map fun s' =>
      (thread.job, s')
  else none

theorem Executes.of_runFirst {inputs : List Input} (hinv : Inv setup s)
    (h : runFirst setup s inputs = some (job, s')) : Executes setup job s s' := by
  obtain ⟨thread, hindex, h⟩ := Option.bind_eq_some_iff.mp h
  split at h
  · rename_i hidle
    obtain ⟨s₁, hturn, h⟩ := Option.bind_eq_some_iff.mp h
    obtain ⟨s', hrest, hpair⟩ := Option.map_eq_some_iff.mp h
    cases hpair
    have hwaits : thread.rest = thread.job.pending setup :=
      hinv.waiting thread (List.mem_of_getElem? hindex)
    refine ⟨Option.isNone_iff_eq_none.mp hidle, 0, s₁, ?_, hturn, .of_runOut hrest⟩
    rw [hindex, ← hwaits]
  · cases h

theorem Executes.inv (h : Executes setup job s s') (hinv : Inv setup s) : Inv setup s' := by
  obtain ⟨-, index, s₁, -, hturn, hfinishes⟩ := h
  have hinv₁ : Inv setup s₁ := hinv.step hturn
  clear hturn
  induction hfinishes with
  | idle => exact hinv₁
  | next _ hstep _ ih => exact ih (hinv₁.step hstep)

/-- Either nothing failed, or a failure is the latest of the events. -/
def StopsAtFailure (events : List Event) : Prop :=
  Unfailing events ∨ ∃ e rest, events = e :: rest ∧ e.isFailure = true

theorem StopsAtFailure.append {since events : List Event} (h : StopsAtFailure since)
    (hevents : Unfailing events) : StopsAtFailure (since ++ events) := by
  rcases h with hunfailing | ⟨e, rest, rfl, he⟩
  · exact Or.inl fun e he => (List.mem_append.mp he).elim (hunfailing e) (hevents e)
  · exact Or.inr ⟨e, rest ++ events, rfl, he⟩

theorem Finishes.extends (h : Finishes setup s s') :
    ∃ since, s'.history = since ++ s.history ∧ StopsAtFailure since := by
  induction h with
  | idle => exact ⟨[], rfl, Or.inl fun e he => absurd he List.not_mem_nil⟩
  | @next s s₁ s' input _ hstep hrest ih =>
    by_cases hfail : input = .fail
    · subst hfail
      obtain ⟨job, c, next, -, -, rfl⟩ := step_fail hstep
      rw [hrest.eq_of_idle rfl]
      exact ⟨[.failed job c], rfl, Or.inr ⟨_, _, rfl, rfl⟩⟩
    · obtain ⟨events, hevents, hquiet⟩ := step_extends hstep
      obtain ⟨since, hsince, hstops⟩ := ih
      exact ⟨since ++ events,
        by rw [hsince, hevents, List.append_assoc], hstops.append (hquiet hfail)⟩

theorem Executes.extends (h : Executes setup job s s') :
    ∃ since, s'.history = since ++ s.history ∧ StopsAtFailure since := by
  obtain ⟨-, index, s₁, -, hturn, hfinishes⟩ := h
  obtain ⟨events, hevents, hquiet⟩ := step_extends hturn
  obtain ⟨since, hsince, hstops⟩ := hfinishes.extends
  exact ⟨since ++ events,
    by rw [hsince, hevents, List.append_assoc], hstops.append (hquiet nofun)⟩

/-- An execution that comes to its end has met no failure. -/
theorem Executes.unfailing_of_ended (h : Executes setup job s s') {result : Bool}
    {own : List Event} (hhistory : s'.history = .ended job result :: (own ++ s.history)) :
    Unfailing (.ended job result :: own) := by
  obtain ⟨since, hsince, hstops⟩ := h.extends
  rw [← List.cons_append] at hhistory
  cases List.append_cancel_right (hsince.symm.trans hhistory)
  rcases hstops with hunfailing | ⟨e, rest, heq, hfailure⟩
  · exact hunfailing
  · cases heq
    cases hfailure

end

/-! ### Monitored executions -/

variable {σ : Type} {m : Monitor σ} {sees : σ → Client Task → List Event → Prop}
  {post : Job → Bool → σ → Prop} {setup : Setup} {job : Job} {s s' : Service}

/-- A thread was abandoned in a call that a monitor permits. -/
def Abandoned (m : Monitor σ) (sees : σ → Client Task → List Event → Prop) (job : Job)
    (s : Service) : Prop :=
  ∃ c x history, isAsked c = true ∧ m.permits x c ∧ sees x s.client history ∧
    s.history = .failed job c :: history

/-- Where an operation asks its surroundings, a monitor sees what they answer and
overlooks what happens aside. -/
structure Listens (m : Monitor σ) (sees : σ → Client Task → List Event → Prop) : Prop where
  answer : ∀ x client history c a clock, sees x client history → m.permits x c →
    isAsked c = true →
    ∃ x', m.moves x c a x' ∧ sees x' client (.answered c a clock :: history)
  aside : ∀ x client client' history events c, sees x client history → m.permits x c →
    isAsked c = true →
    client'.registration = client.registration → (∀ e ∈ events, e.isAside = true) →
      sees x client' (events ++ history)

namespace Sees

theorem finishes (hm : Sees m sees) (hlistens : Listens m sees) (hfinishes : Finishes setup s s')
    {thread : Thread} (hcurrent : s.current = some thread)
    (hfollowed : Followed m sees post thread s) :
    Completed sees post thread.job s' ∨ Abandoned m sees thread.job s' := by
  induction hfinishes generalizing thread with
  | idle hidle => cases hidle.symm.trans hcurrent
  | @next s s₁ s' input hbusy hstep hrest ih =>
    obtain ⟨c, next, x, hasked, hthread, hx, hpermits, hkeeps⟩ := hfollowed
    cases input with
    | turn index =>
      simp only [step, hcurrent] at hstep
      cases hstep
    | answer answer =>
      obtain ⟨job, c', next', a, hcurrent', -, rfl⟩ := step_answer hstep
      cases hcurrent.symm.trans hcurrent'
      dsimp only at hthread
      cases hthread
      obtain ⟨x', hmove, hx'⟩ :=
        hlistens.answer x s.client s.history c a s.client.scheduler.clock hx hpermits hasked
      rcases hm.enter
        (s := { s with current := none }.note (.answered c a s.client.scheduler.clock)) rfl
        (hkeeps a x' hmove) hx' with ⟨hidle, hcompleted⟩ | ⟨thread, hthread, hfollowed⟩
      · rw [hrest.eq_of_idle hidle]
        exact Or.inl hcompleted
      · have hends := ih hthread hfollowed
        rw [enter_current rfl hthread] at hends
        exact hends
    | fail =>
      obtain ⟨job, c', next', hcurrent', -, rfl⟩ := step_fail hstep
      cases hcurrent.symm.trans hcurrent'
      dsimp only at hthread
      cases hthread
      rw [hrest.eq_of_idle rfl]
      exact Or.inr ⟨c, x, s.history, hasked, hpermits, hx, rfl⟩
    | _ =>
      have haside := step_aside hstep rfl
      obtain ⟨events, hevents, hquiet⟩ := haside.history
      refine ih (haside.current.trans hcurrent) ⟨c, next, x, hasked, hthread, ?_,
        hpermits, hkeeps⟩
      rw [hevents]
      exact hlistens.aside x _ _ _ events c hx hpermits hasked haside.registration hquiet

/-- An execution of a monitored job comes to the end of the job or is abandoned
where the monitor permits it. -/
theorem executes (hm : Sees m sees) (hlistens : Listens m sees)
    (hexecutes : Executes setup job s s') {x : σ} (hx : sees x s.client s.history)
    (hkeeps : (job.body setup).Keeps m (post job) x) :
    Completed sees post job s' ∨ Abandoned m sees job s' := by
  obtain ⟨hidle, index, s₁, hindex, hturn, hfinishes⟩ := hexecutes
  rw [step_of_pending hidle hindex] at hturn
  cases hturn
  let turned : Service := { s with waiting := s.waiting.eraseIdx index }
  have hnone : turned.current = none := hidle
  rcases hm.enter (s := turned) hnone hkeeps hx
    with ⟨hended, hcompleted⟩ | ⟨thread, hthread, hfollowed⟩
  · rw [hfinishes.eq_of_idle hended]
    exact Or.inl hcompleted
  · have hends := hm.finishes hlistens hfinishes hthread hfollowed
    rw [enter_current hnone hthread] at hends
    exact hends

end Sees
end Lwm2mClient.Service
