import Lwm2mClient.Proofs.Service.Invariant

/-!
Every step of an engine in service keeps the invariant, and so does every run from an
engine that was made just now.
-/
namespace Lwm2mClient.Service

open Net Engine

variable {setup : Setup}

/-- Between operations the lifecycle tells no more than whether an id is held. -/
def Coherent (r : Registration) : Prop :=
  (r.lifecycle = .registered ∧ r.id ≠ none) ∨ (r.lifecycle = .unregistered ∧ r.id = none)

theorem Coherent.registered {r : Registration} (h : Coherent r) (hheld : r.id ≠ none) :
    r.lifecycle = .registered := by
  rcases h with ⟨hlifecycle, -⟩ | ⟨-, hunheld⟩
  · exact hlifecycle
  · exact absurd hunheld hheld

theorem Coherent.unregistered {r : Registration} (h : Coherent r) (hunheld : r.id = none) :
    r.lifecycle = .unregistered := by
  rcases h with ⟨-, hheld⟩ | ⟨hlifecycle, -⟩
  · exact absurd hunheld hheld
  · exact hlifecycle

theorem Coherent.eq {r r' : Registration} (h : Coherent r) (h' : Coherent r') (hid : r'.id = r.id)
    (hrenewal : r'.renewal = r.renewal)
    (hgeneration : r'.generation = r.generation) : r' = r := by
  have hlifecycle : r'.lifecycle = r.lifecycle := by
    by_cases hunheld : r.id = none
    · rw [h.unregistered hunheld, h'.unregistered (hid.trans hunheld)]
    · rw [h.registered hunheld, h'.registered (hid ▸ hunheld)]
  cases r
  cases r'
  simp_all

/-! ### The scheduler -/

namespace Inv

variable {s : Service}

theorem withScheduler (h : Inv setup s) {scheduler : Scheduler Task}
    (hscheduler : Evolves s.client.scheduler scheduler (inHand s.waiting)) :
    Inv setup (s.withScheduler scheduler) := by
  refine h.drift rfl h.waiting ?_
  constructor
  · rfl
  · rfl
  · intro e he
    exact he
  · exact hscheduler

/-- A task is taken out and started. -/
theorem startTask (h : Inv setup s) {scheduler : Scheduler Task} {entry : Timeline.Entry Task}
    (hscheduler : Evolves s.client.scheduler scheduler (inHand s.waiting ++ [entry])) :
    Inv setup (Service.startTask setup (s.withScheduler scheduler) entry) := by
  obtain ⟨due, number, task⟩ := entry
  cases task with
  | work work =>
    refine Inv.launch h rfl rfl ?_
    constructor
    · rfl
    · rfl
    · intro e he
      exact List.mem_append_left _ he
    · exact hscheduler
  | other =>
    refine h.withScheduler ?_
    intro t' ht'
    obtain ⟨t, ht, hdrift⟩ := hscheduler t' ht'
    refine ⟨t, ht, hdrift.numbered, hdrift.accepted, hdrift.renewals, ?_⟩
    intro hopen'
    obtain ⟨hopen, hkept⟩ := hdrift.kept hopen'
    refine ⟨hopen, ?_⟩
    intro e he hr
    rcases hkept e he hr with hqueue | hhand
    · exact Or.inl hqueue
    · rcases List.mem_append.mp hhand with hold | hentry
      · exact Or.inr hold
      · rw [List.mem_singleton.mp hentry] at hr
        cases hr

/-! ### The operation in progress -/

theorem answer (h : Inv setup s) {job : Job} {c : Call} {next : c.Answer → Program Bool}
    (hcurrent : s.current = some ⟨job, .call c next⟩) (a : c.Answer) :
    Inv setup
      (({ s with current := none }.note (.answered c a s.client.scheduler.clock)).enter true
        job (next a)) := by
  obtain ⟨c', next', hc, hrest, hensures⟩ := h.busy _ hcurrent
  change Program.call c next = .call c' fun a => next' a >>= job.close at hrest
  cases hrest
  simp only [Ensures, answer?_of_isAsked hc] at hensures
  have hnext := (hensures.2 _ (Scene.Drift.refl _)).2 a
  exact Inv.enter rfl h.waiting hnext

theorem paused (h : Inv setup s) {thread : Thread} (hcurrent : s.current = some thread) :
    Paused (scene setup s) := by
  obtain ⟨c, next, hc, -, hensures⟩ := h.busy _ hcurrent
  simp only [Ensures, answer?_of_isAsked hc] at hensures
  exact (hensures.2 _ (Scene.Drift.refl _)).1

theorem fail (h : Inv setup s) {job : Job} {c : Call} {next : c.Answer → Program Bool}
    (hcurrent : s.current = some ⟨job, .call c next⟩) :
    Inv setup ({ s with current := none }.note (.failed job c)) := by
  obtain ⟨phase, hstage⟩ := h.paused hcurrent
  constructor
  · exact h.waiting
  · intro _
    exact hstage.abandon
  · intro thread hthread
    cases hthread

theorem turn (h : Inv setup s) (hcurrent : s.current = none) {index : Nat} {job : Job}
    {next : Unit → Program Bool} (hindex : s.waiting[index]? = some ⟨job, .call .acquire next⟩) :
    Inv setup ({ s with waiting := s.waiting.eraseIdx index }.enter true job (next ())) := by
  have hmem : (⟨job, .call .acquire next⟩ : Thread) ∈ s.waiting := List.mem_of_getElem? hindex
  have hrest : Program.call .acquire next = job.pending setup := h.waiting _ hmem
  cases hrest
  let s₁ := { s with waiting := s.waiting.eraseIdx index }
  have hcurrent₁ : s₁.current = none := hcurrent
  refine Inv.enter hcurrent₁ ?_ ?_
  · intro thread hthread
    exact h.waiting thread (List.mem_of_mem_eraseIdx hthread)
  · apply Ensures.body
    refine (Kept.steady setup.settings .resting).drift _ _ (h.resting hcurrent) ?_
    constructor
    · rfl
    · rfl
    · intro e he
      exact mem_inHand_eraseIdx hindex he
    · intro t ht
      exact ⟨t, ht, Timeline.Drift.refl t _⟩

/-! ### Runs -/

theorem step {s' : Service} {input : Input} (h : Inv setup s)
    (hstep : Service.step setup s input = some s') : Inv setup s' := by
  cases input with
  | operate operation =>
    cases hstep
    refine Inv.launch h rfl rfl ?_
    have hnothing : (scene setup s).hand ++ (Job.operation operation).taken?.toList =
        (scene setup s).hand := List.append_nil _
    rw [hnothing]
    exact Scene.Drift.refl _
  | start =>
    cases hstep
    exact h.withScheduler (evolves_schedule _ _ rfl _)
  | turn index =>
    simp only [Service.step] at hstep
    split at hstep
    · rename_i job next hcurrent hindex
      cases hstep
      exact h.turn hcurrent hindex
    · cases hstep
  | answer answer =>
    simp only [Service.step] at hstep
    split at hstep
    · rename_i job c next hcurrent
      obtain ⟨a, -, ha⟩ := Option.map_eq_some_iff.mp hstep
      cases ha
      exact h.answer hcurrent a
    · cases hstep
  | fail =>
    simp only [Service.step] at hstep
    split at hstep
    · rename_i job c next hcurrent
      split at hstep
      · cases hstep
        exact h.fail hcurrent
      · cases hstep
    · cases hstep
  | gate gate =>
    cases hstep
    exact h.gate gate
  | schedule delay =>
    cases hstep
    exact h.withScheduler (evolves_schedule _ _ rfl _)
  | cancel number =>
    simp only [Service.step] at hstep
    split at hstep
    · rename_i hall
      cases hstep
      apply h.withScheduler
      exact evolves_cancel _ (not_isRenewal_of_all hall) _
    · cases hstep
  | shutDownTimeline =>
    cases hstep
    exact h.withScheduler (evolves_shutdown _ _)
  | windUp index onWorker =>
    obtain ⟨job, next, waits, -, rfl⟩ := step_windUp hstep
    exact (h.withScheduler (evolves_shutdown _ _)).drift rfl h.waiting (Scene.Drift.refl _)
  | goBack index =>
    obtain ⟨job, result, waits, -, rfl⟩ := step_goBack hstep
    exact h.drift rfl h.waiting (Scene.Drift.refl _)
  | take target =>
    simp only [Service.step] at hstep
    split at hstep
    · rename_i t ht
      obtain ⟨⟨entry, t'⟩, htake, hs'⟩ := Option.map_eq_some_iff.mp hstep
      cases hs'
      apply h.startTask
      rw [ht]
      exact Evolves.of_timeline (Timeline.Drift.of_takeDue? htake)
    · cases hstep
  | settle target =>
    simp only [Service.step] at hstep
    split at hstep
    · rename_i t ht
      cases hstep
      apply h.withScheduler
      rw [ht]
      exact Evolves.of_timeline (Timeline.Drift.of_settle t _ target)
    · cases hstep
  | serve =>
    simp only [Service.step] at hstep
    split at hstep
    · cases hstep
    · obtain ⟨⟨due?, w'⟩, -, hs'⟩ := Option.map_eq_some_iff.mp hstep
      cases due? with
      | some entry =>
        cases hs'
        exact h.startTask (Evolves.of_worker _ _ _)
      | none =>
        cases hs'
        exact h.withScheduler (Evolves.of_worker _ _ _)
  | pass instant =>
    cases hstep
    exact h.withScheduler (evolves_passUntil _ _ _)

/-- An engine that was made just now, with a timeline or a worker of its own. -/
theorem of_initial {scheduler : Scheduler Task}
    (hfresh : scheduler = .timeline {} ∨ scheduler = .worker {}) :
    Inv setup (initial scheduler) := by
  have hbacked : ∀ t, scheduler = .timeline t → Backed t {} := by
    intro t ht
    rcases hfresh with heq | heq
    · rw [heq] at ht
      cases ht
      refine ⟨Timeline.numbered_empty, ?_, ?_⟩
      · intro number hnumber
        cases hnumber
      · intro e he
        cases he
    · rw [heq] at ht
      cases ht
  constructor
  · intro thread hthread
    cases hthread
  · intro _
    have hid : (scene setup (initial scheduler)).client.registration.id = none := rfl
    refine ⟨⟨⟨hbacked, ?_, ?_⟩, ?_⟩, Alive.of_unheld hid⟩
    · intro hheld
      exact absurd hid hheld
    · intro _
      rfl
    · refine ⟨?_, fun _ => rfl, fun _ => Or.inr rfl⟩
      intro hlifecycle
      cases hlifecycle
  · intro thread hthread
    cases hthread

theorem of_run {scheduler : Scheduler Task} {inputs : List Input}
    (hfresh : scheduler = .timeline {} ∨ scheduler = .worker {})
    (hrun : run setup (initial scheduler) inputs = some s) : Inv setup s :=
  run_induction (fun _ _ _ h hstep => h.step hstep) (of_initial hfresh) hrun

theorem coherent (h : Inv setup s) (hidle : s.current = none) (hunfailing : Unfailing s.history) :
    Coherent s.client.registration := by
  obtain ⟨hregistered, hunregistered, hsettled⟩ := (h.resting hidle).fits
  rcases hsettled (failed_of_unfailing hunfailing) with hlifecycle | hlifecycle
  · exact Or.inl ⟨hlifecycle, hregistered hlifecycle⟩
  · exact Or.inr ⟨hlifecycle, hunregistered hlifecycle⟩

end Inv
end Lwm2mClient.Service
