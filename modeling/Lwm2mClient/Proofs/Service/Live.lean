import Lwm2mClient.Proofs.Service.Moves

/-!
The renewals that are still to start. While nobody schedules or cancels one, a renewal stops
waiting only because it was taken out for a thread, which then waits for its turn, or because
the scheduler was shut down.
-/
namespace Lwm2mClient

open Timeline (Entry)

namespace Service

open Net Engine

/-- What may become of the renewals while nobody schedules or cancels one, given the
tasks in hand of those who wait: a renewal that is to start no more is in hand, unless
the scheduler was shut down. -/
structure Ages (before after : Scheduler Task) (hand hand' : List (Entry Task)) : Prop where
  live : ∀ e ∈ after.live, e.task.isRenewal → e ∈ before.live
  taken : ∀ e ∈ hand', e.task.isRenewal → e ∈ before.live ∨ e ∈ hand
  held : ∀ e ∈ hand, e ∈ hand'
  kept : after.isShut = false →
    before.isShut = false ∧ ∀ e ∈ before.live, e.task.isRenewal → e ∈ after.live ∨ e ∈ hand'

namespace Ages

variable {a b c : Scheduler Task} {hand hand' hand'' : List (Entry Task)}

theorem refl (scheduler : Scheduler Task) (hand : List (Entry Task)) :
    Ages scheduler scheduler hand hand where
  live _ he _ := he
  taken _ he _ := Or.inr he
  held _ he := he
  kept hopen := ⟨hopen, fun _ he _ => Or.inl he⟩

theorem trans (hab : Ages a b hand hand')
    (hbc : Ages b c hand' hand'') : Ages a c hand hand'' where
  live e he hr := hab.live e (hbc.live e he hr) hr
  taken e he hr := by
    rcases hbc.taken e he hr with hlive | hhand
    · exact Or.inl (hab.live e hlive hr)
    · exact hab.taken e hhand hr
  held e he := hbc.held e (hab.held e he)
  kept hopen'' := by
    obtain ⟨hopen', hkept'⟩ := hbc.kept hopen''
    obtain ⟨hopen, hkept⟩ := hab.kept hopen'
    refine ⟨hopen, ?_⟩
    intro e he hr
    rcases hkept e he hr with hlive | hhand
    · exact hkept' e hlive hr
    · exact Or.inr (hbc.held e hhand)

/-- A renewal that is handed out is in hand. -/
theorem of_handsOut {taken? : Option (Entry Task)} (h : a.HandsOut taken? b)
    (hhand : ∀ e, e ∈ hand' ↔ e ∈ hand ∨ taken? = some e ∧ ∃ work, e.task = .work work) :
    Ages a b hand hand' where
  live e he _ := h.live e he
  taken e he _ := by
    rcases (hhand e).mp he with hold | ⟨htaken, -⟩
    · exact Or.inr hold
    · exact Or.inl (h.taken e htaken)
  held e he := (hhand e).mpr (Or.inl he)
  kept hopen' := by
    obtain ⟨hopen, hkept⟩ := h.kept hopen'
    refine ⟨hopen, ?_⟩
    intro e he hr
    rcases hkept e he with hlive | htaken
    · exact Or.inl hlive
    · have hwork : ∃ work, e.task = .work work := by
        cases htask : e.task with
        | work work => exact ⟨work, rfl⟩
        | other =>
          rw [htask] at hr
          cases hr
      exact Or.inr ((hhand e).mpr (Or.inr ⟨htaken, hwork⟩))

theorem of_none (h : a.HandsOut none b) (hand : List (Entry Task)) : Ages a b hand hand :=
  of_handsOut h fun e => by simp

end Ages

theorem ages_schedule (scheduler : Scheduler Task) (delay : Duration) {task : Task}
    (htask : task.isRenewal = false) (hand : List (Entry Task)) :
    Ages scheduler (scheduler.schedule delay task).2 hand hand where
  live e he hr := by
    rcases Scheduler.mem_live_schedule he with hold | ⟨-, hnew⟩
    · exact hold
    · rw [hnew, htask] at hr
      cases hr
  taken _ he _ := Or.inr he
  held _ he := he
  kept hopen :=
    ⟨Scheduler.isShut_schedule scheduler delay task ▸ hopen,
      fun _ he _ => Or.inl (Scheduler.mem_live_schedule_of_mem he)⟩

theorem ages_cancel (scheduler : Scheduler Task) {number : Nat}
    (hnumber : ∀ e ∈ scheduler.entries, e.number = number → e.task.isRenewal = false)
    (hand : List (Entry Task)) :
    Ages scheduler (scheduler.cancel (.accepted number)) hand hand where
  live _ he _ := (Scheduler.mem_live_cancel.mp he).1
  taken _ he _ := Or.inr he
  held _ he := he
  kept hopen := by
    refine ⟨Scheduler.isShut_cancel scheduler _ ▸ hopen, ?_⟩
    intro e he hr
    refine Or.inl (Scheduler.mem_live_cancel.mpr ⟨he, ?_⟩)
    intro heq
    rw [hnumber e (Scheduler.mem_entries_of_live he) heq] at hr
    cases hr

/-! ### What happens aside -/

variable {setup : Setup} {s s' : Service}

theorem Launched.inHand {job : Job} (h : Launched setup s job s') :
    inHand s'.waiting = inHand s.waiting ++ job.taken?.toList := by
  rcases h.waiting with hnew | ⟨rfl, hold, -⟩
  · rw [hnew, inHand_append]
  · rw [hold]
    exact (List.append_nil _).symm

theorem startTask_ages {scheduler : Scheduler Task} {entry : Entry Task}
    (h : s.client.scheduler.HandsOut (some entry) scheduler) :
    Ages s.client.scheduler (startTask setup (s.withScheduler scheduler) entry).client.scheduler
      (inHand s.waiting)
        (inHand (startTask setup (s.withScheduler scheduler) entry).waiting) := by
  obtain ⟨due, number, task⟩ := entry
  cases task with
  | work work =>
    have hlaunched := launched setup (s.withScheduler scheduler) (.task due number work)
    rw [startTask, hlaunched.scheduler, hlaunched.inHand]
    refine Ages.of_handsOut h fun e => ?_
    constructor
    · intro he
      rcases List.mem_append.mp he with hold | hnew
      · exact Or.inl hold
      · cases List.mem_singleton.mp hnew
        exact Or.inr ⟨rfl, work, rfl⟩
    · rintro (hold | ⟨heq, -⟩)
      · exact List.mem_append_left _ hold
      · cases heq
        exact List.mem_append_right _ (List.mem_singleton.mpr rfl)
  | other =>
    refine Ages.of_handsOut h fun e => ?_
    constructor
    · exact Or.inl
    · rintro (hold | ⟨heq, work, hwork⟩)
      · exact hold
      · cases heq
        cases hwork

theorem step_ages {input : Input} (hstep : step setup s input = some s')
    (haside : input.isAside = true) :
    Ages s.client.scheduler s'.client.scheduler (inHand s.waiting) (inHand s'.waiting) := by
  cases input with
  | operate operation =>
    cases hstep
    have hlaunched := launched setup s (.operation operation)
    rw [hlaunched.scheduler, hlaunched.inHand]
    exact (List.append_nil (inHand s.waiting)).symm ▸ Ages.refl _ _
  | start =>
    cases hstep
    exact ages_schedule _ _ rfl _
  | turn index => cases haside
  | answer answer => cases haside
  | fail => cases haside
  | gate gate =>
    cases hstep
    exact Ages.refl _ _
  | schedule delay =>
    cases hstep
    exact ages_schedule _ _ rfl _
  | cancel number =>
    simp only [step] at hstep
    split at hstep
    · rename_i hall
      cases hstep
      exact ages_cancel _ (not_isRenewal_of_all hall) _
    · cases hstep
  | shutDownTimeline =>
    cases hstep
    exact Ages.of_none (Scheduler.handsOut_shutdown _) _
  | windUp index onWorker =>
    obtain ⟨job, next, waits, -, rfl⟩ := step_windUp hstep
    exact Ages.of_none (Scheduler.handsOut_shutdown _) _
  | goBack index =>
    obtain ⟨job, result, waits, -, rfl⟩ := step_goBack hstep
    exact Ages.refl _ _
  | take target =>
    simp only [step] at hstep
    split at hstep
    · rename_i t ht
      obtain ⟨⟨entry, t'⟩, htake, hs'⟩ := Option.map_eq_some_iff.mp hstep
      cases hs'
      apply startTask_ages
      rw [ht]
      exact Scheduler.handsOut_takeDue? htake
    · cases hstep
  | settle target =>
    simp only [step] at hstep
    split at hstep
    · rename_i t ht
      cases hstep
      refine Ages.of_none ?_ _
      rw [ht]
      exact Scheduler.HandsOut.of_live (fun _ => Iff.rfl) rfl
    · cases hstep
  | serve =>
    simp only [step] at hstep
    split at hstep
    · cases hstep
    · rename_i w hw
      obtain ⟨⟨due?, w'⟩, hmove, hs'⟩ := Option.map_eq_some_iff.mp hstep
      have hmoves := Scheduler.handsOut_move? hmove
      rw [← hw] at hmoves
      cases due? with
      | some entry =>
        cases hs'
        exact startTask_ages hmoves
      | none =>
        cases hs'
        exact Ages.of_none hmoves _
  | pass instant =>
    cases hstep
    exact Ages.of_none (Scheduler.handsOut_passUntil _ _) _

end Service
end Lwm2mClient
