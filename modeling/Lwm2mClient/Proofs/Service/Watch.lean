import Lwm2mClient.Proofs.Service.Runs
import Lwm2mClient.Proofs.Service.Turns

/-!
What becomes of a registration and its renewal in the course of a run. The generation of the
registration is the same as at some moment exactly as long as nothing has superseded the renewal
since, and a renewal for the present generation is to start, or in hand, only where a success
was what superseded it last.
-/
namespace Lwm2mClient.Service

open Net Engine

/-! ### Marks that count -/

/-- The marks that supersede a renewal. -/
def decisive (marks : List Mark) : List Mark := marks.filter Mark.supersedes

theorem decisive_append (marks marks' : List Mark) :
    decisive (marks ++ marks') = decisive marks ++ decisive marks' :=
  List.filter_append ..

theorem decisive_eq_nil {marks : List Mark} : decisive marks = [] ↔ superseded marks = false := by
  rw [decisive, List.filter_eq_nil_iff, superseded, List.any_eq_false]

theorem EndsInSuccess.decisive {marks : List Mark} (h : EndsInSuccess marks) :
    EndsInSuccess (Service.decisive marks) := by
  obtain ⟨m, hlast, hsuccess⟩ := h
  obtain ⟨before, rfl⟩ := List.getLast?_eq_some_iff.mp hlast
  refine ⟨m, ?_, hsuccess⟩
  rw [decisive_append, Service.decisive, Service.decisive,
    List.filter_cons_of_pos (Mark.supersedes_of_isSuccess hsuccess), List.filter_nil,
    List.getLast?_concat]

theorem decisive_aside {events : List Event} (h : ∀ e ∈ events, e.isAside = true) :
    decisive (marksOf events) = [] := by
  rw [decisive_eq_nil, superseded, List.any_eq_false]
  intro m hm
  obtain ⟨e, he, hmark⟩ := List.mem_filterMap.mp (List.mem_reverse.mp hm)
  have haside := h e he
  unfold Event.isAside at haside
  split at haside
  · cases hmark
  · cases hmark
    simp [Mark.supersedes]
  · cases hmark
  · cases hmark
  · cases hmark
  · cases haside

/-! ### Accounts -/

/-- A renewal for the present generation is to start, or in hand. -/
def Outstanding (t : Track) : Prop :=
  ∃ e, (e ∈ t.client.scheduler.live ∨ e ∈ t.hand) ∧ e.task = .work (.renewal t.generation)

/-- What is known of the registration and its renewal since it was of a generation and had an id,
given the marks that have superseded the renewal since. -/
structure Account (generation : Nat) (id : Option String) (marks : List Mark)
    (t : Track) : Prop where
  sane : Sane t
  same : marks = [] → t.generation = generation ∧ t.client.registration.id = id
  later : marks ≠ [] → generation < t.generation
  success : marks ≠ [] → Outstanding t → EndsInSuccess marks

variable {generation : Nat} {id : Option String} {marks : List Mark} {t t' t₀ : Track} {job : Job}
  {result : Bool}

theorem Outstanding.retains (hretains : t.Retains t') (h : Outstanding t') : Outstanding t := by
  obtain ⟨e, he, htask⟩ := h
  have hr : e.task.isRenewal = true := Task.isRenewal_iff.mpr ⟨_, htask⟩
  rw [hretains.generation] at htask
  rcases he with hlive | hhand
  · exact ⟨e, Or.inl (hretains.ages.live e hlive hr), htask⟩
  · exact ⟨e, hretains.ages.taken e hhand hr, htask⟩

theorem Bare.not_outstanding (h : Bare t) : ¬Outstanding t := by
  rintro ⟨e, hlive | hhand, htask⟩
  · have hnone := h.live e hlive
    rw [Task.isRenewal_iff.mpr ⟨_, htask⟩] at hnone
    cases hnone
  · exact absurd (h.hand e hhand _ htask) (Nat.lt_irrefl _)

namespace Account

theorem retains (h : Account generation id marks t) (hretains : t.Retains t') :
    Account generation id marks t' where
  sane := h.sane.retains hretains
  same hnone := by
    rw [hretains.generation, hretains.id]
    exact h.same hnone
  later hsome := by
    rw [hretains.generation]
    exact h.later hsome
  success hsome hout := h.success hsome (hout.retains hretains)

/-- A thread that has its turn has its task no more in hand, and no track of its own yet. -/
theorem less {hand : List (Timeline.Entry Task)} {own : List Mark}
    (h : Account generation id marks t) (hhand : ∀ e ∈ hand, e ∈ t.hand) :
    Account generation id marks ⟨t.client, hand, own⟩ where
  sane := ⟨h.sane.live, fun e he => h.sane.hand e (hhand e he)⟩
  same := h.same
  later := h.later
  success hsome hout := by
    obtain ⟨e, he, htask⟩ := hout
    exact h.success hsome ⟨e, he.imp_right (hhand e), htask⟩

theorem eraseIdx {s : Service} {own : List Event} (h : Account generation id marks (track own s))
    (index : Nat) :
    Account generation id marks (track own { s with waiting := s.waiting.eraseIdx index }) := by
  refine h.less fun e he => ?_
  obtain ⟨thread, hthread, htaken⟩ := List.mem_filterMap.mp he
  exact List.mem_filterMap.mpr ⟨thread, List.mem_of_mem_eraseIdx hthread, htaken⟩

/-- Whatever a job has done when it ends, its marks account for it. -/
theorem concludes (h : Account generation id marks t₀) (hconcludes : Concludes t₀ job result t) :
    Account generation id (marks ++ decisive t.marks) t := by
  have hchanged : superseded t.marks = true → t₀.generation < t.generation → Sane t →
      (Outstanding t → EndsInSuccess (decisive t.marks)) →
      Account generation id (marks ++ decisive t.marks) t := by
    intro hmarks hlater hsane hsuccess
    have hsome : decisive t.marks ≠ [] := by
      rw [ne_eq, decisive_eq_nil, hmarks]
      exact Bool.noConfusion
    have hle : generation ≤ t₀.generation := by
      by_cases hnone : marks = []
      · exact Nat.le_of_eq (h.same hnone).1.symm
      · exact Nat.le_of_lt (h.later hnone)
    constructor
    · exact hsane
    · intro hnone
      exact absurd (List.append_eq_nil_iff.mp hnone).2 hsome
    · intro _
      exact Nat.lt_of_le_of_lt hle hlater
    · intro _ hout
      exact (hsuccess hout).append marks
  cases hconcludes.effect with
  | retained hretains hmarks =>
    rw [decisive_eq_nil.mpr hmarks, List.append_nil]
    exact h.retains hretains
  | renewed hresult hrenewed hmarks =>
    exact hchanged hmarks.superseded hrenewed.later hrenewed.sane fun _ => hmarks.decisive
  | gone hresult hgone hmarks =>
    exact hchanged hmarks hgone.later hgone.bare.sane fun hout =>
      absurd hout hgone.bare.not_outstanding
  | dropped hjob hbare hlater hmarks =>
    exact hchanged hmarks hlater hbare.sane fun hout => absurd hout hbare.not_outstanding

end Account

/-! ### Runs -/

/-- A job is in progress since it had its turn on a track. A renewal that is in progress was for
the present generation then. -/
structure Attends (generation : Nat) (id : Option String) (marks : List Mark) (t₀ : Track)
    (own : List Event) (before : List Mark) (job : Job) (s : Service) : Prop where
  marks_eq : marks = before ++ decisive (marksOf own)
  start : Account generation id before t₀
  renewal : ∀ due number generation', job = .task due number (.renewal generation') →
    generation' = t₀.generation ∧ t₀.client.registration.id ≠ none ∧
      (before ≠ [] → EndsInSuccess before)
  standing : Standing t₀ job own s

/-- What holds of a service at every moment since the registration was of a generation and had an
id, as long as no call fails. -/
structure Watch (generation : Nat) (id : Option String) (marks : List Mark)
    (s : Service) : Prop where
  idle : s.current = none → Account generation id marks (track [] s)
  busy : ∀ thread, s.current = some thread →
    ∃ t₀ own before, Attends generation id marks t₀ own before thread.job s

variable {setup : Setup} {s s' : Service}

theorem Standing.job_eq {own : List Event} {thread : Thread} (h : Standing t₀ job own s)
    (hcurrent : s.current = some thread) : thread.job = job := by
  cases h with
  | underway hasked hcurrent' htracks =>
    cases hcurrent'.symm.trans hcurrent
    rfl
  | done hidle hown hconcludes => cases hidle.symm.trans hcurrent

/-- A renewal that is not for the present generation ends at once. -/
theorem enter_of_stale {due : Duration} {number generation : Nat}
    (hstale : s.client.registration.generation ≠ generation) :
    let job : Job := .task due number (.renewal generation)
    s.enter true job (job.body setup >>= job.close) =
      { s with history := .ended job false :: .reported .staleUpdate :: s.history } := by
  intro job
  have hproceed : proceed true (job.body setup) s.client =
      { client := s.client, lines := [.staleUpdate], holds := true, rest := .done false } := by
    change proceed true (if s.client.registration.generation ≠ generation then
      (Program.call (.log .staleUpdate) fun _ => .done false) else Engine.updateNow setup)
        s.client = _
    rw [if_pos hstale]
    rfl
  rw [enter_of_finished (by rw [hproceed]) (by rw [hproceed]), hproceed]
  rfl

namespace Watch

/-- Where a job stands that had its turn, the watch goes on. -/
theorem of_standing {own : List Event} {before : List Mark}
    (hstart : Account generation id before t₀)
    (hrenewal : s.current ≠ none → ∀ due number generation',
      job = .task due number (.renewal generation') →
        generation' = t₀.generation ∧ t₀.client.registration.id ≠ none ∧
          (before ≠ [] → EndsInSuccess before)) (hstanding : Standing t₀ job own s) :
    Watch generation id (before ++ decisive (marksOf own)) s := by
  constructor
  · intro hidle
    cases hstanding with
    | underway hasked hcurrent htracks => cases hidle.symm.trans hcurrent
    | done hidle' hown hconcludes =>
      have haccount : Account generation id (before ++ decisive (marksOf own))
          ⟨s.client, inHand s.waiting, []⟩ := (hstart.concludes hconcludes).less fun _ he => he
      exact haccount
  · intro thread hthread
    have hbusy : s.current ≠ none := by
      rw [hthread]
      exact Option.some_ne_none thread
    rw [hstanding.job_eq hthread]
    exact ⟨t₀, own, before, rfl, hstart, hrenewal hbusy, hstanding⟩

theorem aside {input : Input} (h : Watch generation id marks s)
    (hstep : step setup s input = some s') (haside : input.isAside = true) :
    Watch generation id marks s' := by
  have hmoved := step_aside hstep haside
  constructor
  · intro hidle
    have haccount := h.idle (hmoved.current ▸ hidle)
    exact haccount.retains (track_drift hstep haside []).toRetains
  · intro thread hthread
    obtain ⟨t₀, own, before, hattends⟩ := h.busy thread (hmoved.current ▸ hthread)
    exact ⟨t₀, own, before, hattends.marks_eq, hattends.start, hattends.renewal,
      hattends.standing.aside hstep haside⟩

theorem answer {answer : Answer} (h : Watch generation id marks s)
    (hstep : step setup s (.answer answer) = some s') :
    ∃ events, s'.history = events ++ s.history ∧
      Watch generation id (marks ++ decisive (marksOf events)) s' := by
  obtain ⟨job, c, next, a, hcurrent, -, -⟩ := step_answer hstep
  obtain ⟨t₀, own, before, hattends⟩ := h.busy _ hcurrent
  obtain ⟨events, hhistory, hstanding⟩ := hattends.standing.answer hstep
  refine ⟨events, hhistory, ?_⟩
  have hwatch := of_standing hattends.start (fun _ => hattends.renewal) hstanding
  rwa [marksOf_append, decisive_append, ← List.append_assoc, ← hattends.marks_eq] at hwatch

theorem turn {index : Nat} (h : Watch generation id marks s)
    (hpending : ∀ thread ∈ s.waiting, thread.rest = thread.job.pending setup)
    (hstep : step setup s (.turn index) = some s') :
    ∃ events, s'.history = events ++ s.history ∧
      Watch generation id (marks ++ decisive (marksOf events)) s' := by
  obtain ⟨job, hcurrent, hindex, rfl⟩ := step_turn hstep hpending
  let rested : Service := { s with waiting := s.waiting.eraseIdx index }
  have haccount := h.idle hcurrent
  have hstart : Account generation id marks (track [] rested) := haccount.eraseIdx index
  obtain ⟨events, hhistory, hstanding⟩ := Standing.turn (s := rested) hcurrent hstart.sane job
  refine ⟨events, hhistory, of_standing hstart ?_ hstanding⟩
  rintro hbusy due number generation' rfl
  -- a stale renewal would have ended at once, and none would be in progress now
  have hcurrentGeneration : s.client.registration.generation = generation' := by
    refine Classical.byContradiction fun hstale => hbusy ?_
    exact (congrArg Service.current (enter_of_stale (s := rested) hstale)).trans hcurrent
  have hhand : ⟨due, number, .work (.renewal generation')⟩ ∈ inHand s.waiting :=
    List.mem_filterMap.mpr ⟨_, List.mem_of_getElem? hindex, rfl⟩
  refine ⟨hcurrentGeneration.symm, ?_, ?_⟩
  · exact (haccount.sane.hand _ hhand generation' rfl).2 hcurrentGeneration.symm
  · intro hsome
    refine haccount.success hsome ⟨_, Or.inr hhand, ?_⟩
    rw [← hcurrentGeneration]
    rfl

/-- What every step but a failure adds to a history is accounted for. -/
theorem step {input : Input} (hinv : Inv setup s) (h : Watch generation id marks s)
    (hstep : Service.step setup s input = some s') (hinput : input ≠ .fail) :
    ∃ events, s'.history = events ++ s.history ∧
      Watch generation id (marks ++ decisive (marksOf events)) s' := by
  by_cases haside : input.isAside = true
  · obtain ⟨events, hhistory, hevents⟩ := (step_aside hstep haside).history
    refine ⟨events, hhistory, ?_⟩
    rw [decisive_aside hevents, List.append_nil]
    exact h.aside hstep haside
  · cases input with
    | turn index => exact h.turn hinv.waiting hstep
    | answer answer => exact h.answer hstep
    | fail => exact absurd rfl hinput
    | _ => exact absurd rfl haside

theorem run (hinv : Inv setup s) (h : Watch generation id marks s) {inputs : List Input}
    (hrun : Service.run setup s inputs = some s') (hinputs : .fail ∉ inputs) :
    ∃ events, s'.history = events ++ s.history ∧
      Watch generation id (marks ++ decisive (marksOf events)) s' := by
  induction inputs generalizing s marks with
  | nil =>
    cases hrun
    refine ⟨[], rfl, ?_⟩
    exact (List.append_nil marks).symm ▸ h
  | cons input rest ih =>
    obtain ⟨mid, hmid, hrest⟩ := Option.bind_eq_some_iff.mp hrun
    have hinput : input ≠ .fail := fun heq => hinputs (heq ▸ List.mem_cons_self)
    obtain ⟨first, hfirst, hwatch⟩ := h.step hinv hmid hinput
    obtain ⟨more, hmore, hwatch'⟩ :=
      ih (hinv.step hmid) hwatch hrest fun hmem => hinputs (List.mem_cons_of_mem input hmem)
    refine ⟨more ++ first, by rw [hmore, hfirst, List.append_assoc], ?_⟩
    rwa [marksOf_append, decisive_append, ← List.append_assoc]

theorem of_initial {scheduler : Scheduler Task}
    (hfresh : scheduler = .timeline {} ∨ scheduler = .worker {}) :
    Watch 0 none [] (initial scheduler) := by
  have hnothing : scheduler.live = [] := by
    rcases hfresh with rfl | rfl <;> rfl
  have hsane : Sane (track [] (initial scheduler)) := by
    constructor
    · intro e he
      change e ∈ scheduler.live at he
      rw [hnothing] at he
      cases he
    · intro e he
      cases he
  constructor
  · intro _
    exact ⟨hsane, fun _ => ⟨rfl, rfl⟩, fun hsome => absurd rfl hsome, fun hsome =>
      absurd rfl hsome⟩
  · intro thread hthread
    cases hthread

/-- What has happened to an engine since it was made accounts for its registration and its
renewal. -/
theorem of_run {scheduler : Scheduler Task} {inputs : List Input}
    (hfresh : scheduler = .timeline {} ∨ scheduler = .worker {})
    (hrun : Service.run setup (initial scheduler) inputs = some s)
    (hunfailing : Unfailing s.history) : Watch 0 none (decisive (marksOf s.history)) s := by
  have hinputs : .fail ∉ inputs := (unfailing_of_run hrun hunfailing).2
  have hinv : Inv setup (initial scheduler) := Inv.of_initial hfresh
  obtain ⟨events, hevents, hwatch⟩ := (of_initial hfresh).run hinv hrun hinputs
  have hall : s.history = events := by
    rw [hevents]
    exact List.append_nil events
  rwa [List.nil_append, ← hall] at hwatch

/-- A renewal that is to start knows the registration, wherever the operation in progress
stands. -/
theorem sane (h : Watch generation id marks s) : Sane (track [] s) := by
  cases hcurrent : s.current with
  | none => exact (h.idle hcurrent).sane
  | some thread =>
    obtain ⟨t₀, own, before, hattends⟩ := h.busy thread hcurrent
    cases hattends.standing with
    | done hidle hown hconcludes => cases hidle.symm.trans hcurrent
    | underway hasked hcurrent' htracks =>
      simp only [Tracks, answer?_of_isAsked hasked] at htracks
      have hsane := (htracks.2 _ (Track.Drift.refl _)).1.ready.sane
      exact ⟨hsane.live, hsane.hand⟩

/-- A watch can begin anew wherever a renewal is to start. -/
theorem rebase (h : Watch generation id marks s) {e : Timeline.Entry Task}
    (he : e ∈ s.client.scheduler.live) (hr : e.task.isRenewal = true) :
    Watch s.client.registration.generation s.client.registration.id [] s := by
  have hnew : ∀ t : Track, Sane t → t.generation = s.client.registration.generation →
      t.client.registration.id = s.client.registration.id →
      Account s.client.registration.generation s.client.registration.id [] t := by
    intro t hsane hgeneration hid
    exact ⟨hsane, fun _ => ⟨hgeneration, hid⟩, fun hsome => absurd rfl hsome,
      fun hsome => absurd rfl hsome⟩
  constructor
  · intro hidle
    exact hnew _ (h.idle hidle).sane rfl rfl
  · intro thread hthread
    obtain ⟨t₀, own, before, hattends⟩ := h.busy thread hthread
    cases hstanding : hattends.standing with
    | done hidle hown hconcludes => cases hidle.symm.trans hthread
    | underway hasked hcurrent htracks =>
      simp only [Tracks, answer?_of_isAsked hasked] at htracks
      -- as the renewal is still to start, the operation in progress has not touched it so far
      rcases (htracks.2 _ (Track.Drift.refl _)).1.ready.undecided with ⟨hretains, hmarks⟩ | hnone
      · refine ⟨t₀, own, [], ?_, ?_, ?_, hattends.standing⟩
        · exact (decisive_eq_nil.mpr hmarks).symm
        · exact hnew t₀ hattends.start.sane hretains.generation.symm hretains.id.symm
        · intro due number generation' hjob
          obtain ⟨hgeneration, hid, -⟩ := hattends.renewal due number generation' hjob
          exact ⟨hgeneration, hid, fun hsome => absurd rfl hsome⟩
      · rw [hnone e he] at hr
        cases hr

end Watch
end Lwm2mClient.Service
