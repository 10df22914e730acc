import Lwm2mClient.Proofs.Service.Coherence
import Lwm2mClient.Proofs.Service.Updating
import Lwm2mClient.Proofs.Service.Watch

/-!
What becomes of a renewal that was taken out and has to wait for its turn. In the meantime it may
have been superseded: by an update, by a success, by a release or the loss of the registration,
or by a stop. Then it ends at once, otherwise it updates the registration. So what decided last
on the registration before a renewal sends its Update request was a success, and no two renewals
send theirs for the same one.
-/
namespace Lwm2mClient.Service

open Net Engine

variable {setup : Setup} {s s' : Service} {job : Job} {events : List Event}

/-! ### Events that count -/

/-- Whether an event tells that the renewal was cancelled or replaced. -/
def Event.supersedes (e : Event) : Bool := e.mark?.any Mark.supersedes

/-- Whether an event is the answer that makes a registration succeed, or its update. -/
def Event.isSuccess (e : Event) : Bool := e.mark?.any Mark.isSuccess

theorem superseded_marksOf (events : List Event) :
    superseded (marksOf events) = events.any Event.supersedes := by
  rw [superseded, marksOf, List.any_reverse, List.any_filterMap]
  rfl

/-- Where a success was decisive last, the latest event that counts is that success. -/
theorem EndsInSuccess.find? (h : EndsInSuccess (Service.decisive (marksOf events))) :
    ∃ x, events.find? Event.supersedes = some x ∧ x.isSuccess = true := by
  obtain ⟨m, hlast, hsuccess⟩ := h
  rw [Service.decisive, marksOf, List.filter_reverse, List.getLast?_reverse, List.head?_filter,
    List.find?_filterMap] at hlast
  obtain ⟨x, hx, hmark⟩ := Option.bind_eq_some_iff.mp hlast
  refine ⟨x, hx, ?_⟩
  rw [Event.isSuccess, hmark]
  exact hsuccess

/-! ### Renewals that send -/

/-- Whether a renewal is in progress and has asked to have its Update request sent. -/
def renewalSends (s : Service) : Bool :=
  match s.current with
  | some ⟨.task _ _ (.renewal _), .call (.send _ _ (.update _) _) _⟩ => true
  | _ => false

theorem renewalSends_iff :
    renewalSends s = true ↔ ∃ due number generation peer secure id timeout,
      Asking s (.task due number (.renewal generation))
        (.send peer secure (.update id) timeout) := by
  unfold renewalSends
  constructor
  · intro h
    split at h
    · rename_i due number generation peer secure id timeout next hcurrent
      exact ⟨due, number, generation, peer, secure, id, timeout, next, hcurrent⟩
    · cases h
  · rintro ⟨due, number, generation, peer, secure, id, timeout, next, hcurrent⟩
    rw [hcurrent]

/-- What was decisive last before a renewal sends its Update request was a success. -/
theorem Watch.success {marks : List Mark} (h : Watch 0 none marks s)
    (hsends : renewalSends s = true) : EndsInSuccess marks := by
  obtain ⟨due, number, generation, peer, secure, id, timeout, next, hcurrent⟩ :=
    renewalSends_iff.mp hsends
  obtain ⟨t₀, own, before, hattends⟩ := h.busy _ hcurrent
  obtain ⟨-, hid, hsuccess⟩ := hattends.renewal due number generation rfl
  -- an engine holds no id before anything was decisive
  have hbefore : before ≠ [] := fun hnone => hid (hattends.start.same hnone).2
  cases hattends.standing with
  | done hidle hown hconcludes => cases hidle.symm.trans hcurrent
  | underway hasked hcurrent' htracks =>
    injection hcurrent'.symm.trans hcurrent with hthread
    injection hthread with _ hrest
    injection hrest with hcall
    subst hcall
    simp only [Tracks, answer?_of_isAsked hasked] at htracks
    have hmarks : superseded (marksOf own) = false :=
      (htracks.2 _ (Track.Drift.refl _)).1.first rfl
    rw [hattends.marks_eq, decisive_eq_nil.mpr hmarks, List.append_nil]
    exact hsuccess hbefore

/-- The answer to the Update request of a renewal counts. -/
theorem supersedes_of_answered {inputs : List Input} (hsends : renewalSends s = true)
    (hrun : run setup s inputs = some s') (hinputs : .fail ∉ inputs)
    (hanswered : ∃ input ∈ inputs, input.isAside = false) :
    ∃ since, s'.history = since ++ s.history ∧ since.any Event.supersedes = true := by
  induction inputs generalizing s with
  | nil =>
    obtain ⟨input, hinput, -⟩ := hanswered
    cases hinput
  | cons input rest ih =>
    obtain ⟨mid, hmid, hrest⟩ := Option.bind_eq_some_iff.mp hrun
    obtain ⟨due, number, generation, peer, secure, id, timeout, next, hcurrent⟩ :=
      renewalSends_iff.mp hsends
    by_cases haside : input.isAside = true
    · have hmoved := step_aside hmid haside
      obtain ⟨events, hevents, -⟩ := hmoved.history
      have hsends' : renewalSends mid = true := by
        rw [renewalSends, hmoved.current]
        exact hsends
      obtain ⟨since, hsince, hcounts⟩ := ih hsends' hrest
        (fun hmem => hinputs (List.mem_cons_of_mem input hmem))
          (by simpa [haside] using hanswered)
      refine ⟨since ++ events, by rw [hsince, hevents, List.append_assoc], ?_⟩
      rw [List.any_append, hcounts]
      rfl
    · cases input with
      | turn index => simp [step, hcurrent] at hmid
      | fail => exact absurd List.mem_cons_self hinputs
      | answer answer =>
        obtain ⟨job, c, next', a, hcurrent', -, rfl⟩ := step_answer hmid
        cases hcurrent.symm.trans hcurrent'
        let heard : Event :=
          .answered (.send peer secure (.update id) timeout) a s.client.scheduler.clock
        obtain ⟨events, hevents, -⟩ := enter_extends ({ s with current := none }.note heard) true
          (.task due number (.renewal generation)) (next a)
        obtain ⟨later, hlater⟩ := run_extends hrest
        refine ⟨later ++ (events ++ [heard]), ?_, ?_⟩
        · rw [hlater, hevents, List.append_assoc, List.append_assoc]
          rfl
        · have hcounts : heard.supersedes = true := rfl
          rw [List.any_append, List.any_append, List.any_cons, hcounts, Bool.true_or,
            Bool.or_true, Bool.or_true]
      | _ => exact absurd rfl haside

/-! ### Renewals that wait -/

/-- A renewal that was to start in one state has been taken out and waits for its turn in
another. -/
structure TakenOut (setup : Setup) (s : Service) (e : Timeline.Entry Task) (since : List Event)
    (s' : Service) (index : Nat) (job : Job) : Prop where
  scheduled : e ∈ s.client.scheduler.live
  renewal : e.task.isRenewal = true
  run : ∃ inputs, run setup s inputs = some s'
  history : s'.history = since ++ s.history
  waiting : s'.waiting[index]?.map (·.job) = some job
  taken : job.taken? = some e

/-- A renewal that has waited ends at once if it was superseded since, and updates
the registration otherwise. -/
theorem TakenOut.turn {marks : List Mark} {e : Timeline.Entry Task} {since : List Event}
    {index : Nat} {generation : Nat} {id : Option String}
    (h : TakenOut setup s e since s' index job) (hinv : Inv setup s)
    (hwatch : Watch generation id marks s) (hunfailing : Unfailing s'.history)
    (hidle : s'.current = none) :
    ∃ s'', step setup s' (.turn index) = some s'' ∧
      if since.any Event.supersedes then
        s'' = { s' with
          waiting := s'.waiting.eraseIdx index
          history := .ended job false :: .reported .staleUpdate :: s'.history }
      else ∃ id, s'.client.registration.id = some id ∧ Refreshes setup job id s'' := by
  obtain ⟨inputs, hrun⟩ := h.run
  have hnone : .fail ∉ inputs := (unfailing_of_run hrun hunfailing).2
  obtain ⟨-, hpresent, hheld⟩ := hwatch.sane.live e h.scheduled h.renewal
  obtain ⟨since', hsince', hwatch'⟩ := (hwatch.rebase h.scheduled h.renewal).run hinv hrun hnone
  have heq : since = since' := List.append_cancel_right (h.history.symm.trans hsince')
  rw [List.nil_append, ← heq] at hwatch'
  have haccount := hwatch'.idle hidle
  obtain ⟨thread, hindex, hjob⟩ := Option.map_eq_some_iff.mp h.waiting
  have hinv' : Inv setup s' := run_induction (fun _ _ _ h hstep => h.step hstep) hinv hrun
  have hpending : s'.waiting[index]? = some ⟨job, job.pending setup⟩ := by
    rw [hindex, ← hjob, ← hinv'.waiting thread (List.mem_of_getElem? hindex)]
  refine ⟨_, step_of_pending hidle hpending, ?_⟩
  cases job with
  | operation o => cases h.taken
  | task due number work =>
    have htaken : Task.work work = .work (.renewal s.client.registration.generation) := by
      have htaken := h.taken
      cases htaken
      exact hpresent
    cases htaken
    split
    · rename_i hsuperseded
      have hsome : decisive (marksOf since) ≠ [] := by
        rw [ne_eq, decisive_eq_nil, superseded_marksOf, hsuperseded]
        exact Bool.noConfusion
      exact enter_of_stale (s := { s' with waiting := s'.waiting.eraseIdx index })
        (Nat.ne_of_gt (haccount.later hsome))
    · rename_i hsuperseded
      have hnothing : decisive (marksOf since) = [] := by
        rw [decisive_eq_nil, superseded_marksOf]
        exact (Bool.not_eq_true _).mp hsuperseded
      obtain ⟨hgeneration, hid⟩ := haccount.same hnothing
      obtain ⟨id, hsame⟩ := Option.ne_none_iff_exists'.mp hheld
      have hheld' : s'.client.registration.id = some id := hid.trans hsame
      exact ⟨id, hheld',
        refreshes_of_present (s := { s' with waiting := s'.waiting.eraseIdx index })
        hgeneration hheld' _⟩

/-- As long as no call fails, a renewal sends its Update request only after a success that
nothing has superseded since, and only once for it. A renewal that was taken out and waits
for its turn ends at once if anything has superseded it in the meantime, and goes on to its
Update request otherwise. -/
theorem renewal_unless_superseded {scheduler : Scheduler Task} {inputs : List Input}
    (hfresh : scheduler = .timeline {} ∨ scheduler = .worker {})
    (hrun : run setup (initial scheduler) inputs = some s) (hunfailing : Unfailing s.history) :
    (renewalSends s = true → ∃ x, s.history.find? Event.supersedes = some x ∧
      x.isSuccess = true) ∧
      (∀ more s' since, renewalSends s = true → run setup s more = some s' →
        Unfailing s'.history →
        s'.history = since ++ s.history → (∃ input ∈ more, input.isAside = false) →
        renewalSends s' = true →
          ∃ x, since.find? Event.supersedes = some x ∧ x.isSuccess = true) ∧
      ∀ e since s' index job, TakenOut setup s e since s' index job → Unfailing s'.history →
        s'.current = none → ∃ s'', step setup s' (.turn index) = some s'' ∧
          if since.any Event.supersedes then
            s'' = { s' with
              waiting := s'.waiting.eraseIdx index
              history := .ended job false :: .reported .staleUpdate :: s'.history }
          else ∃ id, s'.client.registration.id = some id ∧ Refreshes setup job id s'' := by
  have hfound : ∀ inputs s, run setup (initial scheduler) inputs = some s → Unfailing s.history →
      renewalSends s = true → ∃ x, s.history.find? Event.supersedes = some x ∧
        x.isSuccess = true :=
    fun inputs s hrun hunfailing hsends =>
      ((Watch.of_run hfresh hrun hunfailing).success hsends).find?
  refine ⟨hfound inputs s hrun hunfailing, ?_, ?_⟩
  · intro more s' since hsends hmore hunfailing' hsince hanswered hsends'
    have hall : run setup (initial scheduler) (inputs ++ more) = some s' := by
      rw [run_append, hrun]
      exact hmore
    obtain ⟨x, hx, hsuccess⟩ := hfound (inputs ++ more) s' hall hunfailing' hsends'
    obtain ⟨since', hsince', hcounts⟩ :=
      supersedes_of_answered hsends hmore (unfailing_of_run hmore hunfailing').2 hanswered
    have heq : since = since' := List.append_cancel_right (hsince.symm.trans hsince')
    have hsome : (since.find? Event.supersedes).isSome = true := by
      rw [List.find?_isSome, ← List.any_eq_true, heq]
      exact hcounts
    obtain ⟨y, hy⟩ := Option.isSome_iff_exists.mp hsome
    rw [hsince, List.find?_append, hy, Option.some_or] at hx
    cases hx
    exact ⟨x, hy, hsuccess⟩
  · intro e since s' index job htaken hunfailing' hidle
    have hinv : Inv setup s := Inv.of_run hfresh hrun
    exact htaken.turn hinv (Watch.of_run hfresh hrun hunfailing) hunfailing' hidle

/-- The renewal is taken out, and the host has the registration updated before it has its turn. -/
def overtaking : List Input :=
  [.take .max, .operate .update, .turn 1, .answer (.object (some sampleSecurities)),
    .answer (.object (some (sampleServers 30))), .answer (.response (some ⟨.changed, none⟩))]

/-- The renewal is taken out, and the server refuses to take the registration back before it has
its turn. -/
def keeping : List Input :=
  [.take .max, .operate .deregister, .turn 1, .answer (.object (some sampleSecurities)),
    .answer (.object (some (sampleServers 30))), .answer (.response (some ⟨.forbidden, none⟩))]

/-- The renewal is taken out and has its turn, up to its Update request. -/
def renewing : List Input :=
  [.take .max, .turn 0, .answer (.object (some sampleSecurities)),
    .answer (.object (some (sampleServers 30)))]

deriving instance DecidableEq for Timeline.Entry

/-- Whether a renewal of one state waits for its turn in another where none is in
progress, without a failure. -/
def hasWaited (s s' : Service) : Bool :=
  decide (Unfailing s'.history ∧ s'.current.isNone) && s'.waiting[0]?.any fun thread =>
    thread.job.taken?.any fun e => decide (e ∈ s.client.scheduler.live ∧ e.task.isRenewal)

theorem takenOut_of_hasWaited {inputs : List Input} (h : hasWaited s s' = true)
    (hrun : run setup s inputs = some s') :
    Unfailing s'.history ∧ s'.current = none ∧
      ∃ e since job, TakenOut setup s e since s' 0 job ∧
        (since.any Event.supersedes = true ↔
          s.history.countP Event.supersedes < s'.history.countP Event.supersedes) := by
  obtain ⟨hat, hwaits⟩ := Bool.and_eq_true_iff.mp h
  obtain ⟨hunfailing, hidle⟩ := of_decide_eq_true hat
  obtain ⟨thread, hindex, hwaits⟩ := (Option.any_eq_true _ _).mp hwaits
  obtain ⟨e, htaken, hwaits⟩ := (Option.any_eq_true _ _).mp hwaits
  obtain ⟨he, hr⟩ := of_decide_eq_true hwaits
  obtain ⟨since, hsince⟩ := run_extends hrun
  refine ⟨hunfailing, Option.isNone_iff_eq_none.mp hidle, e, since, thread.job, ?_, ?_⟩
  · exact ⟨he, hr, ⟨inputs, hrun⟩, hsince, by rw [hindex]; rfl, htaken⟩
  · rw [hsince, List.countP_append, List.any_eq_true, ← List.countP_pos_iff]
    omega

theorem renewal_once_waited :
    ∃ s, run sampleSetup (initial (.timeline {})) (registering 30) = some s ∧
      Unfailing s.history ∧
      (∃ e since s' job, run sampleSetup s overtaking = some s' ∧
        TakenOut sampleSetup s e since s' 0 job ∧ since.any Event.supersedes = true ∧
        step sampleSetup s' (.turn 0) = some { s' with
          waiting := s'.waiting.eraseIdx 0
          history := .ended job false :: .reported .staleUpdate :: s'.history }) ∧
      (∃ e since s' s'' job id, run sampleSetup s keeping = some s' ∧
        TakenOut sampleSetup s e since s' 0 job ∧ since.any Event.supersedes = false ∧
        step sampleSetup s' (.turn 0) = some s'' ∧ Refreshes sampleSetup job id s'') ∧
      ∃ s₁ s₂ since x, run sampleSetup s renewing = some s₁ ∧ renewalSends s₁ = true ∧
        run sampleSetup s₁ (.answer (.response (some ⟨.changed, none⟩)) :: renewing) = some s₂ ∧
        renewalSends s₂ = true ∧ s₂.history = since ++ s₁.history ∧
        since.find? Event.supersedes = some x ∧ x.isSuccess = true := by
  have hpossible : (run sampleSetup (initial (.timeline {})) (registering 30)).any fun s =>
      decide (Unfailing s.history) &&
        ((run sampleSetup s overtaking).any fun s' => hasWaited s s' &&
          decide (s.history.countP Event.supersedes < s'.history.countP Event.supersedes)) &&
        ((run sampleSetup s keeping).any fun s' => hasWaited s s' &&
          decide (s'.history.countP Event.supersedes ≤ s.history.countP Event.supersedes)) &&
        ((run sampleSetup s renewing).any fun s₁ => renewalSends s₁ &&
          (run sampleSetup s₁ (.answer (.response (some ⟨.changed, none⟩)) :: renewing)).any
            fun s₂ =>
            decide (Unfailing s₂.history) && renewalSends s₂) := by
    decide +kernel
  obtain ⟨s, hrun, hcheck⟩ := (Option.any_eq_true _ _).mp hpossible
  simp only [Bool.and_eq_true_iff] at hcheck
  obtain ⟨⟨⟨hunfailing, hovertaken⟩, hkept⟩, hrenewed⟩ := hcheck
  obtain ⟨-, -, hturn⟩ :=
    renewal_unless_superseded (Or.inl rfl) hrun (of_decide_eq_true hunfailing)
  refine ⟨s, hrun, of_decide_eq_true hunfailing, ?_, ?_, ?_⟩
  · obtain ⟨s', hmore, hcheck⟩ := (Option.any_eq_true _ _).mp hovertaken
    obtain ⟨hwaits, hcounts⟩ := Bool.and_eq_true_iff.mp hcheck
    obtain ⟨hunfailing', hidle, e, since, job, htaken, hany⟩ := takenOut_of_hasWaited hwaits hmore
    have hsuperseded := hany.mpr (of_decide_eq_true hcounts)
    obtain ⟨s'', hstep, hend⟩ := hturn e since s' 0 job htaken hunfailing' hidle
    rw [if_pos hsuperseded] at hend
    exact ⟨e, since, s', job, hmore, htaken, hsuperseded, hend ▸ hstep⟩
  · obtain ⟨s', hmore, hcheck⟩ := (Option.any_eq_true _ _).mp hkept
    obtain ⟨hwaits, hcounts⟩ := Bool.and_eq_true_iff.mp hcheck
    obtain ⟨hunfailing', hidle, e, since, job, htaken, hany⟩ := takenOut_of_hasWaited hwaits hmore
    have hpresent : ¬since.any Event.supersedes = true := by
      rw [hany]
      exact Nat.not_lt_of_le (of_decide_eq_true hcounts)
    obtain ⟨s'', hstep, hgoes⟩ := hturn e since s' 0 job htaken hunfailing' hidle
    rw [if_neg hpresent] at hgoes
    obtain ⟨id, -, hrefreshes⟩ := hgoes
    exact ⟨e, since, s', s'', job, id, hmore, htaken, (Bool.not_eq_true _).mp hpresent,
      hstep, hrefreshes⟩
  · obtain ⟨s₁, hfirst, hcheck⟩ := (Option.any_eq_true _ _).mp hrenewed
    obtain ⟨hsends₁, hcheck⟩ := Bool.and_eq_true_iff.mp hcheck
    obtain ⟨s₂, hsecond, hcheck⟩ := (Option.any_eq_true _ _).mp hcheck
    obtain ⟨hunfailing₂, hsends₂⟩ := Bool.and_eq_true_iff.mp hcheck
    have hunfailing₁ := (unfailing_of_run hsecond (of_decide_eq_true hunfailing₂)).1
    have hrun₁ :
        run sampleSetup (initial (.timeline {})) (registering 30 ++ renewing) = some s₁ := by
      rw [run_append, hrun]
      exact hfirst
    obtain ⟨since, hsince⟩ := run_extends hsecond
    obtain ⟨-, hbetween, -⟩ := renewal_unless_superseded (Or.inl rfl) hrun₁ hunfailing₁
    obtain ⟨x, hx, hsuccess⟩ :=
      hbetween _ s₂ since hsends₁ hsecond (of_decide_eq_true hunfailing₂)
      hsince ⟨_, List.mem_cons_self, rfl⟩ hsends₂
    exact ⟨s₁, s₂, since, x, hfirst, hsends₁, hsecond, hsends₂, hsince, hx, hsuccess⟩

end Lwm2mClient.Service
