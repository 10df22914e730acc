import Lwm2mClient.Proofs.Service.Coherence
import Lwm2mClient.Proofs.Service.Watch

/-!
What one operation sends and what it comes to. Whatever the store holds from one reading to the
next, whatever the servers answer and whatever others do in the meantime, the requests of an
operation form one of a few words, its result tells whether the last of them was a success, and
where it has not reached its goal the registration is given up with its renewal. Only a bootstrap
that has sent nothing leaves both as they were.
-/
namespace Lwm2mClient.Service

open Net Engine

variable {setup : Setup} {s s' : Service} {job : Job} {own : List Event} {result : Bool}
  {marks : List Mark}

/-- Whether a job is to make sure of a registration. -/
def Job.seeks : Job → Bool
  | operation .register | operation .update | operation .bootstrap | task .. => true
  | _ => false

theorem Job.Follows.ends (h : job.Follows marks result) (hjob : job.seeks = true) :
    Ends (exchanges marks) result := by
  cases job with
  | operation o =>
    cases o with
    | register => exact Registers.ends h
    | update => exact Updates.ends h
    | bootstrap => exact Bootstraps.ends h
    | _ => cases hjob
  | task due number work =>
    cases work with
    | start => exact Starts.ends h
    | renewal generation =>
      rcases h with ⟨rfl, rfl⟩ | hupdates
      · exact Ends.nil
      · exact Updates.ends hupdates

/-- A job that leaves the renewal alone has sent nothing, and it was no register and no update. -/
theorem Job.Follows.unsent (h : job.Follows marks result) (hjob : job.seeks = true)
    (hmarks : superseded marks = false) :
    exchanges marks = [] ∧ job ≠ .operation .register ∧ job ≠ .operation .update := by
  have hbootstraps : Bootstraps marks result → exchanges marks = [] := by
    intro hbootstraps
    rcases hbootstraps.superseded_or with hsuperseded | ⟨rfl, -⟩
    · rw [hmarks] at hsuperseded
      cases hsuperseded
    · rfl
  have hchanged : superseded marks = true → False := by
    rw [hmarks]
    exact Bool.noConfusion
  cases job with
  | operation o =>
    cases o with
    | register => exact absurd (Registers.superseded h) hchanged
    | update => exact absurd (Updates.superseded h) hchanged
    | bootstrap => exact ⟨hbootstraps h, by simp, by simp⟩
    | _ => cases hjob
  | task due number work =>
    cases work with
    | start =>
      cases h with
      | known hescalates => exact absurd hescalates.superseded hchanged
      | unknown hstarts => exact ⟨hbootstraps hstarts, by simp, by simp⟩
    | renewal generation =>
      rcases h with ⟨rfl, -⟩ | hupdates
      · exact ⟨rfl, by simp, by simp⟩
      · exact absurd (Updates.superseded hupdates) hchanged

/-! ### From the turn to the end -/

/-- The operation in progress goes on to its end while other things happen aside. The events are
those that are due to it, the latest first. -/
inductive Course (setup : Setup) : Service → List Event → Service → Prop
  | done {s : Service} (hidle : s.current = none) : Course setup s [] s
  | aside {s s₁ s' : Service} {input : Input} {own : List Event} (hbusy : s.current ≠ none)
      (haside : input.isAside = true) (hstep : step setup s input = some s₁)
      (hrest : Course setup s₁ own s') : Course setup s own s'
  | answered {s s₁ s' : Service} {answer : Answer} {events own : List Event}
      (hstep : step setup s (.answer answer) = some s₁)
      (hevents : s₁.history = events ++ s.history) (hrest : Course setup s₁ own s') :
      Course setup s (own ++ events) s'

/-- A job that waits has its turn, and goes on to its end without a failed call. -/
inductive Performs (setup : Setup) (s : Service) (job : Job) : List Event → Service → Prop
  | mk {index : Nat} {thread : Thread} {s₁ s' : Service} {events own : List Event}
      (hindex : s.waiting[index]? = some thread) (hjob : thread.job = job)
      (hturn : step setup s (.turn index) = some s₁) (hevents : s₁.history = events ++ s.history)
      (hcourse : Course setup s₁ own s') : Performs setup s job (own ++ events) s'

/-- A job that stands on a track ends on it. -/
theorem Course.concludes {t₀ : Track} {earlier : List Event} (h : Course setup s own s')
    (hstanding : Standing t₀ job earlier s) :
    s'.current = none ∧ ∃ result rest, own ++ earlier = .ended job result :: rest ∧
      Concludes t₀ job result (track (own ++ earlier) s') := by
  induction h generalizing earlier with
  | done hidle =>
    cases hstanding with
    | underway hasked hcurrent htracks => cases hidle.symm.trans hcurrent
    | done hidle' hown hconcludes => exact ⟨hidle, _, _, hown, hconcludes⟩
  | aside hbusy haside hstep hrest ih => exact ih (hstanding.aside hstep haside)
  | @answered s s₁ s' answer events own hstep hevents hrest ih =>
    obtain ⟨events', hevents', hstanding'⟩ := hstanding.answer hstep
    have heq : events = events' := List.append_cancel_right (hevents.symm.trans hevents')
    rw [List.append_assoc, heq]
    exact ih hstanding'


/-! ### Every job comes to an end -/

theorem Answer.exists_to? {c : Call} (hc : isAsked c = true) :
    ∃ (answer : Answer) (a : c.Answer), answer.to? c = some a := by
  cases c with
  | objectIds => exact ⟨.ids [], [], rfl⟩
  | readObject object => exact ⟨.object none, none, rfl⟩
  | deleteInstance sender object number => exact ⟨.code .deleted, .deleted, rfl⟩
  | send peer secure request timeout => exact ⟨.response none, none, rfl⟩
  | awaitFinish timeout => exact ⟨.flag false, false, rfl⟩
  | _ => cases hc

/-- Whatever a job is told, it comes to an end. -/
theorem Tracks.course {t₀ : Track} {p : Program Bool} (hidle : s.current = none)
    (h : Tracks (Poised t₀) p
      (fun result t => Concludes t₀ job result (t.note (.ended job result))) (track own s)) :
    ∃ own' s', Course setup (s.enter true job (p >>= job.close)) own' s' := by
  -- the answers are chosen anew at each call, so this is no induction on a list of answers
  induction p generalizing s own with
  | done result =>
    rw [enter_of_finished rfl rfl, depart_eq, report_eq]
    exact ⟨[], _, Course.done hidle⟩
  | call c next ih =>
    simp only [Tracks] at h
    split at h
    · rename_i reply hreply
      rw [Program.call_bind, enter_of_reply hreply, report_eq]
      have hrest : Tracks _ _ _
        (Track.report ⟨reply.client, inHand s.waiting, marksOf own⟩ reply.lines) := h
      rw [report_track] at hrest
      exact ih reply.answer hidle hrest
    · obtain ⟨hc, hwaits⟩ := h
      obtain ⟨answer, a, ha⟩ := Answer.exists_to? hc
      rw [Program.call_bind, enter_of_isAsked hc]
      let heard : Event := .answered c a s.client.scheduler.clock
      have hnext := (hwaits _ (Track.Drift.refl _)).2 a
      change Tracks _ _ _ (Track.note ⟨s.client, inHand s.waiting, marksOf own⟩ heard) at hnext
      rw [note_track] at hnext
      let answered : Service := { s with current := none }.note heard
      have htold : Tracks _ _ _ (track (heard :: own) answered) := hnext
      obtain ⟨own', s', hcourse⟩ := ih a (s := answered) rfl htold
      let asked : Service :=
        { s with current := some ⟨job, .call c fun a => next a >>= job.close⟩ }
      have hstep : step setup asked (.answer answer) =
          some (answered.enter true job (next a >>= job.close)) := by
        simp only [step, asked, ha, Option.map_some]
        rfl
      obtain ⟨events, hevents, -⟩ := step_extends hstep
      exact ⟨own' ++ events, s', Course.answered hstep hevents hcourse⟩

/-! ### What an operation comes to -/

/-- The registration is given up. No renewal is to start, and those that wait for their turn are
outdated. -/
structure Relinquished (s : Service) : Prop where
  unheld : s.client.registration.id = none
  lifecycle : s.client.registration.lifecycle = .unregistered
  live : ∀ e ∈ s.client.scheduler.live, e.task.isRenewal = false
  hand : ∀ e ∈ inHand s.waiting, ∀ generation, e.task = .work (.renewal generation) →
    generation < s.client.registration.generation

/-- The registration is as it was, and so is its renewal, unless it was taken out or the scheduler
was shut down in the meantime. -/
structure Preserved (s s' : Service) : Prop where
  registration : s'.client.registration = s.client.registration
  live : ∀ e ∈ s'.client.scheduler.live, e.task.isRenewal → e ∈ s.client.scheduler.live
  kept : s'.client.scheduler.isShut = false → ∀ e ∈ s.client.scheduler.live, e.task.isRenewal →
    e ∈ s'.client.scheduler.live ∨ e ∈ inHand s'.waiting

/-- How a job went that had its turn in one state and ended in another with a result, given the
events that are due to it, the latest first. -/
structure Outcome (s : Service) (job : Job) (own : List Event) (result : Bool) (s' : Service) :
    Prop where
  ended : own.head? = some (.ended job result)
  idle : s'.current = none
  /-- The requests form a word of the job, and with the attempts that were not made
  they follow its course. -/
  word : Service.word (marksOf own) ∈ job.words
  follows : job.Follows (marksOf own) result
  bounded : (Service.word (marksOf own)).count .update ≤ 1 ∧
    (Service.word (marksOf own)).count .bootstrap ≤ 1 ∧
    (Service.word (marksOf own)).count .register ≤ 2
  /-- The result tells whether the last request was a success, and nothing was sent after one. -/
  ends : job.seeks = true → Ends (exchanges (marksOf own)) result
  success : job.seeks = true → result = true →
    s'.client.registration.lifecycle = .registered ∧ s'.client.registration.id ≠ none
  failure : job.seeks = true → result = false →
    Relinquished s' ∨ exchanges (marksOf own) = [] ∧ Preserved s s'
  /-- A register and an update always give up where they fail, a bootstrap only if it has sent
  something. -/
  relinquishes : job = .operation .register ∨ job = .operation .update →
    result = false → Relinquished s'
  preserves : job = .operation .bootstrap → result = false →
    if exchanges (marksOf own) = [] then Preserved s s' else Relinquished s'

theorem Job.not_isStop_of_seeks (h : job.seeks = true) : job.isStop = false := by
  cases job with
  | operation o => cases o <;> first | rfl | cases h
  | task due number work => rfl

/-- What has become of the registration where a job has ended that was to make sure of one. -/
theorem Effect.result_or {t₀ t : Track} (h : Effect t₀ job result t) (hjob : job.seeks = true) :
    (result = true ∧ t.client.registration.id ≠ none) ∨
      (result = false ∧ Gone t₀.generation t ∧ superseded t.marks = true) ∨
      (t₀.Retains t ∧ superseded t.marks = false) := by
  cases h with
  | retained hretains hmarks => exact Or.inr (Or.inr ⟨hretains, hmarks⟩)
  | renewed hresult hrenewed hmarks => exact Or.inl ⟨hresult, hrenewed.held⟩
  | gone hresult hgone hmarks =>
    refine Or.inr (Or.inl ⟨?_, hgone, hmarks⟩)
    rw [← Bool.not_eq_true]
    intro htrue
    rw [hresult htrue] at hjob
    cases hjob
  | dropped hstop hbare hlater hmarks =>
    rw [Job.not_isStop_of_seeks hjob] at hstop
    cases hstop

/-- A bootstrap that has superseded the renewal has sent a request. -/
theorem Bootstraps.exchanges_ne_nil (h : Bootstraps marks result)
    (hmarks : superseded marks = true) : exchanges marks ≠ [] := by
  cases h with
  | unsent => cases hmarks
  | failed hkind => exact List.cons_ne_nil _ _
  | finished hkind hregisters => exact List.cons_ne_nil _ _

theorem Gone.relinquished {generation : Nat} (h : Gone generation (track own s'))
    (hcoherent' : Coherent s'.client.registration) : Relinquished s' :=
  ⟨h.unheld, hcoherent'.unregistered h.unheld, h.bare.live, h.bare.hand⟩

theorem Track.Retains.preserved {index : Nat}
    (h : (track [] { s with waiting := s.waiting.eraseIdx index }).Retains (track own s'))
    (hcoherent : Coherent s.client.registration) (hcoherent' : Coherent s'.client.registration) :
    Preserved s s' := by
  refine ⟨?_, h.ages.live, fun hopen => (h.ages.kept hopen).2⟩
  exact hcoherent.eq hcoherent' h.id h.renewal h.generation

/-- A job has ended that had its turn in a state: what its marks tell of it is how it went. -/
theorem Outcome.of_concludes {index : Nat} {earlier : List Event}
    (hcoherent : Coherent s.client.registration) (hcoherent' : Coherent s'.client.registration)
    (hidle : s'.current = none) (hown : own = .ended job result :: earlier)
    (h : Concludes (track [] { s with waiting := s.waiting.eraseIdx index }) job result
      (track own s')) : Outcome s job own result s' := by
  have hfollows : job.Follows (marksOf own) result := h.follows
  have hunsent := fun hjob hmarks => Job.Follows.unsent hfollows hjob hmarks
  constructor
  · rw [hown]
    rfl
  · exact hidle
  · exact hfollows.word
  · exact hfollows
  · exact count_of_mem_words hfollows.word
  · exact hfollows.ends
  · intro hjob hresult
    rcases h.effect.result_or hjob with ⟨-, hheld⟩ | ⟨hfalse, -⟩ | ⟨-, hmarks⟩
    · exact ⟨hcoherent'.registered hheld, hheld⟩
    · cases hfalse.symm.trans hresult
    · obtain ⟨x, hx, -⟩ := (hfollows.ends hjob).last.mp hresult
      rw [(hunsent hjob hmarks).1] at hx
      cases hx
  · intro hjob hresult
    rcases h.effect.result_or hjob with ⟨htrue, -⟩ | ⟨-, hgone, -⟩ | ⟨hretains, hmarks⟩
    · cases htrue.symm.trans hresult
    · exact Or.inl (hgone.relinquished hcoherent')
    · exact Or.inr ⟨(hunsent hjob hmarks).1, hretains.preserved hcoherent hcoherent'⟩
  · intro hjob hresult
    have hseeks : job.seeks = true := by
      rcases hjob with rfl | rfl <;> rfl
    rcases h.effect.result_or hseeks with ⟨htrue, -⟩ | ⟨-, hgone, -⟩ | ⟨-, hmarks⟩
    · cases htrue.symm.trans hresult
    · exact hgone.relinquished hcoherent'
    · obtain ⟨-, hregister, hupdate⟩ := hunsent hseeks hmarks
      rcases hjob with rfl | rfl
      · exact absurd rfl hregister
      · exact absurd rfl hupdate
  · rintro rfl hresult
    rcases h.effect.result_or rfl with ⟨htrue, -⟩ | ⟨-, hgone, hmarks⟩ | ⟨hretains, hmarks⟩
    · cases htrue.symm.trans hresult
    · rw [if_neg (Bootstraps.exchanges_ne_nil hfollows hmarks)]
      exact hgone.relinquished hcoherent'
    · rw [if_pos (hunsent rfl hmarks).1]
      exact hretains.preserved hcoherent hcoherent'

theorem Course.keeps {P : Service → Prop} (h : Course setup s own s')
    (hstep : ∀ s input s', input ≠ .fail → P s → step setup s input = some s' → P s') (hs : P s) :
    P s' := by
  induction h with
  | done hidle => exact hs
  | aside hbusy haside hmove hrest ih =>
    refine ih (hstep _ _ _ ?_ hs hmove)
    rintro rfl
    cases haside
  | answered hmove hevents hrest ih => exact ih (hstep _ _ _ (by simp) hs hmove)

/-- A job that has its turn ends on the track that it began on then. -/
theorem Performs.concludes {generation : Nat} {id : Option String} (hinv : Inv setup s)
    (hwatch : Watch generation id marks s) (h : Performs setup s job own s') :
    s.current = none ∧ s'.current = none ∧ ∃ index result earlier,
      own = .ended job result :: earlier ∧
      Concludes (track [] { s with waiting := s.waiting.eraseIdx index }) job result
        (track own s') := by
  cases h with
  | @mk index thread s₁ _ events own hindex hjob hturn hevents hcourse =>
    obtain ⟨job', hcurrent, hindex', rfl⟩ := step_turn hturn hinv.waiting
    cases hindex.symm.trans hindex'
    cases hjob
    let rested : Service := { s with waiting := s.waiting.eraseIdx index }
    have hsane : Sane (track [] rested) := ((hwatch.idle hcurrent).eraseIdx index).sane
    obtain ⟨events', hevents', hstanding⟩ := Standing.turn (s := rested) hcurrent hsane job'
    have heq : events = events' := List.append_cancel_right (hevents.symm.trans hevents')
    rw [← heq] at hstanding
    obtain ⟨hidle', result, earlier, hown, hconcludes⟩ := hcourse.concludes hstanding
    exact ⟨hcurrent, hidle', index, result, earlier, hown, hconcludes⟩

theorem Performs.inv (hinv : Inv setup s) (h : Performs setup s job own s') : Inv setup s' := by
  cases h with
  | mk hindex hjob hturn hevents hcourse =>
    exact hcourse.keeps (fun _ _ _ _ h hstep => h.step hstep) (hinv.step hturn)

theorem Performs.unfailing (hunfailing : Unfailing s.history) (h : Performs setup s job own s') :
    Unfailing s'.history := by
  cases h with
  | mk hindex hjob hturn hevents hcourse =>
    exact hcourse.keeps (fun _ _ _ hinput h hstep => unfailing_of_step hstep hinput h)
      (unfailing_of_step hturn (by simp) hunfailing)

theorem Performs.outcome {generation : Nat} {id : Option String} (hinv : Inv setup s)
    (hwatch : Watch generation id marks s) (hunfailing : Unfailing s.history)
    (h : Performs setup s job own s') : ∃ result, Outcome s job own result s' := by
  obtain ⟨hidle, hidle', index, result, earlier, hown, hconcludes⟩ := h.concludes hinv hwatch
  exact ⟨result, Outcome.of_concludes (hinv.coherent hidle hunfailing)
    ((h.inv hinv).coherent hidle' (h.unfailing hunfailing)) hidle' hown hconcludes⟩

/-- Whoever waits can have a turn once no operation is in progress, and comes to an end then. -/
theorem exists_performs {generation : Nat} {id : Option String} (hinv : Inv setup s)
    (hwatch : Watch generation id marks s) (hidle : s.current = none) {thread : Thread}
    (hthread : thread ∈ s.waiting) : ∃ own s', Performs setup s thread.job own s' := by
  obtain ⟨index, hindex⟩ := List.mem_iff_getElem?.mp hthread
  let rested : Service := { s with waiting := s.waiting.eraseIdx index }
  have hsane : Sane (track [] rested) := ((hwatch.idle hidle).eraseIdx index).sane
  have hbody : Tracks (Poised (track [] rested)) (thread.job.body setup) _ (track [] rested) :=
    Tracks.body hsane rfl thread.job
  obtain ⟨own, s', hcourse⟩ := Tracks.course (s := rested) hidle hbody
  have hpending : s.waiting[index]? = some ⟨thread.job, thread.job.pending setup⟩ := by
    rw [hindex, ← hinv.waiting thread hthread]
  have hturn := step_of_pending hidle hpending
  obtain ⟨events, hevents, -⟩ := step_extends hturn
  exact ⟨own ++ events, s', Performs.mk hindex rfl hturn hevents hcourse⟩

/-- As long as no call fails, whoever asks for an operation waits for its turn or is refused at
once, whoever waits can come to an end, and every job ends with one of its outcomes. -/
theorem outcome_of_unfailing {scheduler : Scheduler Task} {inputs : List Input}
    (hfresh : scheduler = .timeline {} ∨ scheduler = .worker {})
    (hrun : run setup (initial scheduler) inputs = some s) (hunfailing : Unfailing s.history) :
    (∀ o, ∃ s', step setup s (.operate o) = some s' ∧ Launched setup s (.operation o) s') ∧
      (s.current = none → ∀ thread ∈ s.waiting, ∃ own s', Performs setup s thread.job own s') ∧
      ∀ job own s', Performs setup s job own s' → ∃ result, Outcome s job own result s' := by
  have hinv : Inv setup s := Inv.of_run hfresh hrun
  have hwatch := Watch.of_run hfresh hrun hunfailing
  refine ⟨?_, ?_, ?_⟩
  · intro o
    exact ⟨_, rfl, launched setup s (.operation o)⟩
  · intro hidle thread hthread
    exact exists_performs hinv hwatch hidle hthread
  · intro job own s' hperforms
    exact hperforms.outcome hinv hwatch hunfailing

/-- A job gets its answers one after the other. -/
theorem Course.of_answers {answers : List Answer}
    (hrun : run setup s (answers.map .answer) = some s') (hidle : s'.current = none) :
    ∃ own, s'.history = own ++ s.history ∧ Course setup s own s' := by
  induction answers generalizing s with
  | nil =>
    cases hrun
    exact ⟨[], rfl, Course.done hidle⟩
  | cons answer rest ih =>
    obtain ⟨mid, hmid, hrest⟩ := Option.bind_eq_some_iff.mp hrun
    obtain ⟨events, hevents, -⟩ := step_extends hmid
    obtain ⟨own, hown, hcourse⟩ := ih hrest
    refine ⟨own ++ events, ?_, Course.answered hmid hevents hcourse⟩
    rw [hown, hevents, List.append_assoc]

/-- The engine registers, and is asked for an update. -/
def askingUpdate : List Input := registering 30 ++ [.operate .update]

/-- The server knows the registration no more, and grants another one. -/
def rejecting : List Answer :=
  [.object (some sampleSecurities), .object (some (sampleServers 30)),
    .response (some ⟨.notFound, none⟩), .object (some sampleSecurities),
    .object (some (sampleServers 30)), .ids [], .response (some ⟨.created, some "s"⟩)]

theorem outcome_once_rejected :
    ∃ s own s', run sampleSetup (initial (.timeline {})) askingUpdate = some s ∧
      Unfailing s.history ∧
      Performs sampleSetup s (.operation .update) own s' ∧
      Outcome s (.operation .update) own true s' ∧
      Service.word (marksOf own) = [.update, .register] := by
  have hpossible : (run sampleSetup (initial (.timeline {})) askingUpdate).any fun s =>
      decide (Unfailing s.history ∧ Service.word (marksOf s.history) = [.register]) &&
        s.waiting[0]?.any fun thread => thread.job = .operation .update &&
          (step sampleSetup s (.turn 0)).any fun s₁ =>
            (run sampleSetup s₁ (rejecting.map .answer)).any fun s' =>
              decide (s'.current.isNone ∧ s'.client.registration.id.isSome ∧
                Service.word (marksOf s'.history) = [.register, .update, .register]) := by
    decide +kernel
  obtain ⟨s, hrun, hcheck⟩ := (Option.any_eq_true _ _).mp hpossible
  obtain ⟨hbefore, hcheck⟩ := Bool.and_eq_true_iff.mp hcheck
  obtain ⟨hunfailing, hword⟩ := of_decide_eq_true hbefore
  obtain ⟨thread, hindex, hcheck⟩ := (Option.any_eq_true _ _).mp hcheck
  obtain ⟨hjob, hcheck⟩ := Bool.and_eq_true_iff.mp hcheck
  obtain ⟨s₁, hturn, hcheck⟩ := (Option.any_eq_true _ _).mp hcheck
  obtain ⟨s', hanswers, hcheck⟩ := (Option.any_eq_true _ _).mp hcheck
  obtain ⟨hidle, hid, hword'⟩ := of_decide_eq_true hcheck
  obtain ⟨events, hevents, -⟩ := step_extends hturn
  obtain ⟨own, hown, hcourse⟩ :=
    Course.of_answers hanswers (Option.isNone_iff_eq_none.mp hidle)
  have hperforms : Performs sampleSetup s (.operation .update) (own ++ events) s' :=
    Performs.mk hindex (of_decide_eq_true hjob) hturn hevents hcourse
  obtain ⟨result, houtcome⟩ :=
    (outcome_of_unfailing (Or.inl rfl) hrun hunfailing).2.2 _ _ _ hperforms
  have hresult : result = true := by
    rw [← Bool.not_eq_false]
    intro hfalse
    rw [(houtcome.relinquishes (Or.inr rfl) hfalse).unheld] at hid
    cases hid
  refine ⟨s, own ++ events, s', hrun, hunfailing, hperforms, hresult ▸ houtcome, ?_⟩
  rw [hown, hevents, ← List.append_assoc, marksOf_append, word_append, hword] at hword'
  have hwords : [.register] ++ Service.word (marksOf (own ++ events)) = [.register] ++
      [.update, .register] :=
    hword'
  exact List.append_cancel_left hwords

end Lwm2mClient.Service
