import Lwm2mClient.Proofs.Service.Coherence
import Lwm2mClient.Proofs.Service.Updating
import Lwm2mClient.Proofs.Service.Watch

/-!
An engine that was stopped. No renewal is to start any more, and one that was taken out before
ends at once when it has its turn. Work that was left to the timeline without a handle stays
there: a start that was still to come goes ahead. As long as the host asks for nothing, nothing
else can have the engine send a request.
-/
namespace Lwm2mClient.Service

open Net Engine

/-- Whether an input is the host asking the engine for something. -/
def Input.isHost : Input → Bool
  | operate _ | start => true
  | _ => false

/-- Whether an event tells of nothing but a task that begins, a renewal that comes too late, or an
operation that returns after its turn. -/
def Event.isQuiet : Event → Bool
  | began (.task ..) | reported .staleUpdate | returned .. => true
  | ended (.task _ _ (.renewal _)) result => !result
  | _ => false

/-- Work of the engine is to start, or waits for its turn. -/
def Awaits (s : Service) (work : Work) : Prop :=
  ∃ e, (e ∈ s.client.scheduler.live ∨ e ∈ inHand s.waiting) ∧ e.task = .work work

instance (s : Service) (work : Work) : Decidable (Awaits s work) :=
  decidable_of_iff (∃ e ∈ s.client.scheduler.live ++ inHand s.waiting, e.task = .work work) <| by
    simp only [Awaits, List.mem_append]

variable {setup : Setup} {s s' s'' : Service}

/-! ### Tasks that are taken out -/

/-- All that happened is that some tasks were taken out, which now wait for their turn. -/
structure TakesOut (setup : Setup) (s s' : Service) : Prop where
  waiting : ∃ threads, s'.waiting = s.waiting ++ threads ∧
    ∀ thread ∈ threads, thread.rest = thread.job.pending setup ∧
      ∃ e ∈ s.client.scheduler.live, thread.job.taken? = some e
  history : ∃ events, s'.history = events ++ s.history ∧ ∀ e ∈ events, e.isQuiet = true
  live : ∀ e ∈ s'.client.scheduler.live, ∀ work, e.task = .work work → e ∈ s.client.scheduler.live

theorem TakesOut.of_nothing (hwaiting : s'.waiting = s.waiting)
    (hhistory : s'.history = s.history)
    (hlive : ∀ e ∈ s'.client.scheduler.live, ∀ work, e.task = .work work →
      e ∈ s.client.scheduler.live) : TakesOut setup s s' where
  waiting := ⟨[], by rw [hwaiting, List.append_nil], by simp⟩
  history := ⟨[], hhistory, by simp⟩
  live := hlive

theorem TakesOut.of_startTask {scheduler : Scheduler Task} {entry : Timeline.Entry Task}
    (h : s.client.scheduler.HandsOut (some entry) scheduler) :
    TakesOut setup s (startTask setup (s.withScheduler scheduler) entry) := by
  obtain ⟨due, number, task⟩ := entry
  cases task with
  | other => exact of_nothing rfl rfl fun e he _ _ => h.live e he
  | work work =>
    let job : Job := .task due number work
    have hlaunch : startTask setup (s.withScheduler scheduler) ⟨due, number, .work work⟩ =
        { s.withScheduler scheduler with
          waiting := s.waiting ++ [⟨job, job.pending setup⟩]
          history := .began job :: s.history } := by
      cases work <;> rfl
    rw [hlaunch]
    refine ⟨⟨[⟨job, job.pending setup⟩], rfl, ?_⟩, ⟨[.began job], rfl, ?_⟩, fun e he _ _ =>
      h.live e he⟩
    · intro thread hthread
      rw [List.mem_singleton.mp hthread]
      exact ⟨rfl, _, h.taken _ rfl, rfl⟩
    · intro e he
      rw [List.mem_singleton.mp he]
      rfl

/-- Unless the host asks for something, what happens aside is that tasks are taken out. -/
theorem step_takesOut {input : Input} (hstep : step setup s input = some s')
    (haside : input.isAside = true) (hhost : input.isHost = false) : TakesOut setup s s' := by
  cases input with
  | operate operation => cases hhost
  | start => cases hhost
  | turn index => cases haside
  | answer answer => cases haside
  | fail => cases haside
  | gate gate =>
    cases hstep
    exact TakesOut.of_nothing rfl rfl fun e he _ _ => he
  | schedule delay =>
    cases hstep
    refine TakesOut.of_nothing rfl rfl fun e he work htask => ?_
    rcases Scheduler.mem_live_schedule he with hold | ⟨-, hother⟩
    · exact hold
    · rw [hother] at htask
      cases htask
  | cancel number =>
    simp only [step] at hstep
    split at hstep
    · cases hstep
      exact TakesOut.of_nothing rfl rfl fun e he _ _ => (Scheduler.mem_live_cancel.mp he).1
    · cases hstep
  | shutDownTimeline =>
    cases hstep
    exact TakesOut.of_nothing rfl rfl fun e he _ _ => (Scheduler.handsOut_shutdown _).live e he
  | windUp index onWorker =>
    obtain ⟨job, next, waits, -, rfl⟩ := step_windUp hstep
    exact TakesOut.of_nothing rfl rfl fun e he _ _ => (Scheduler.handsOut_shutdown _).live e he
  | goBack index =>
    obtain ⟨job, result, waits, -, rfl⟩ := step_goBack hstep
    refine ⟨⟨[], (List.append_nil _).symm, by simp⟩, ⟨[.returned job result], rfl, ?_⟩,
      fun e he _ _ => he⟩
    intro e he
    rw [List.mem_singleton.mp he]
    rfl
  | take target =>
    simp only [step] at hstep
    split at hstep
    · rename_i t ht
      obtain ⟨⟨entry, t'⟩, htake, hs'⟩ := Option.map_eq_some_iff.mp hstep
      cases hs'
      apply TakesOut.of_startTask
      rw [ht]
      exact Scheduler.handsOut_takeDue? htake
    · cases hstep
  | settle target =>
    simp only [step] at hstep
    split at hstep
    · rename_i t ht
      cases hstep
      refine TakesOut.of_nothing rfl rfl fun e he _ _ => ?_
      rw [ht]
      exact he
    · cases hstep
  | serve =>
    simp only [step] at hstep
    split at hstep
    · cases hstep
    · rename_i w hw
      obtain ⟨⟨due?, w'⟩, hmove, hs'⟩ := Option.map_eq_some_iff.mp hstep
      have hmoves := Scheduler.handsOut_move? hmove
      rw [← hw] at hmoves
      cases due? with
      | some entry =>
        cases hs'
        exact TakesOut.of_startTask hmoves
      | none =>
        cases hs'
        exact TakesOut.of_nothing rfl rfl fun e he _ _ => hmoves.live e he
  | pass instant =>
    cases hstep
    exact TakesOut.of_nothing rfl rfl fun e he _ _ => (Scheduler.handsOut_passUntil _ _).live e he

theorem TakesOut.awaits (h : TakesOut setup s s') {work : Work} (hawaits : Awaits s' work) :
    Awaits s work := by
  obtain ⟨threads, hwaiting, hthreads⟩ := h.waiting
  obtain ⟨e, hlive | hhand, htask⟩ := hawaits
  · exact ⟨e, Or.inl (h.live e hlive work htask), htask⟩
  · obtain ⟨thread, hthread, htaken⟩ := List.mem_filterMap.mp hhand
    rw [hwaiting] at hthread
    rcases List.mem_append.mp hthread with hold | hnew
    · exact ⟨e, Or.inr (List.mem_filterMap.mpr ⟨thread, hold, htaken⟩), htask⟩
    · obtain ⟨-, e', he', htaken'⟩ := hthreads thread hnew
      cases htaken.symm.trans htaken'
      exact ⟨e, Or.inl he', htask⟩

/-! ### Nothing to do -/

/-- The engine has nothing to do but outdated renewals and starts: no operation of the host is in
progress or waits, no renewal is to start, and those that wait for their turn are outdated. -/
structure Quiet (setup : Setup) (s : Service) : Prop where
  idle : s.current = none
  bare : Bare (track [] s)
  tasks : ∀ thread ∈ s.waiting,
    thread.rest = thread.job.pending setup ∧ thread.job.taken?.isSome = true

/-- Nothing has happened to a registration, and no work has come up. -/
structure Rests (s s' : Service) : Prop where
  registration : s'.client.registration = s.client.registration
  history : ∃ events, s'.history = events ++ s.history ∧ ∀ e ∈ events, e.isQuiet = true
  awaits : ∀ work, Awaits s' work → Awaits s work

/-- A start that was to come, or waited for its turn, has had it. -/
structure StartsUp (s s' : Service) : Prop where
  awaits : Awaits s .start
  history : ∃ events, s'.history = events ++ s.history ∧ .reported .started ∈ events

theorem Rests.refl (s : Service) : Rests s s := ⟨rfl, ⟨[], rfl, by simp⟩, fun _ h => h⟩

theorem Rests.trans (h : Rests s s') (h' : Rests s' s'') : Rests s s'' := by
  obtain ⟨events, hevents, hquiet⟩ := h.history
  obtain ⟨more, hmore, hquiet'⟩ := h'.history
  refine ⟨h'.registration.trans h.registration, ⟨more ++ events, ?_, ?_⟩,
    fun work hawaits => h.awaits work (h'.awaits work hawaits)⟩
  · rw [hmore, hevents, List.append_assoc]
  · intro e he
    rcases List.mem_append.mp he with hnew | hold
    · exact hquiet' e hnew
    · exact hquiet e hold

theorem Rests.startsUp (h : Rests s s') (h' : StartsUp s' s'') : StartsUp s s'' := by
  obtain ⟨events, hevents, -⟩ := h.history
  obtain ⟨more, hmore, hstarted⟩ := h'.history
  refine ⟨h.awaits _ h'.awaits, more ++ events, ?_, List.mem_append_left _ hstarted⟩
  rw [hmore, hevents, List.append_assoc]

theorem StartsUp.run (h : StartsUp s s') {inputs : List Input}
    (hrun : Service.run setup s' inputs = some s'') : StartsUp s s'' := by
  obtain ⟨events, hevents, hstarted⟩ := h.history
  obtain ⟨more, hmore⟩ := run_extends hrun
  refine ⟨h.awaits, more ++ events, ?_, List.mem_append_right _ hstarted⟩
  rw [hmore, hevents, List.append_assoc]

/-- A start that has its turn says so first. -/
theorem enter_of_start (setup : Setup) (s : Service) (due : Duration) (number : Nat) :
    let job : Job := .task due number .start
    ∃ events, (s.enter true job (job.body setup >>= job.close)).history =
      events ++ .reported .started :: s.history := by
  intro job
  obtain ⟨p, hp⟩ : ∃ p, (job.body setup >>= job.close) = .call (.log .started) fun _ => p :=
    ⟨_, rfl⟩
  have hlog : s.enter true job (.call (.log .started) fun _ => p) =
      (s.note (.reported .started)).enter true job p := by
    have hreply : s.client.answer? .work (.log .started) = some ⟨(), s.client, [.started]⟩ := rfl
    exact enter_of_reply hreply
  obtain ⟨events, hevents, -⟩ := enter_extends (s.note (.reported .started)) true job p
  exact ⟨events, by rw [hp, hlog, hevents]; rfl⟩

namespace Quiet

theorem aside {input : Input} (h : Quiet setup s) (hstep : Service.step setup s input = some s')
    (haside : input.isAside = true) (hhost : input.isHost = false) :
    Quiet setup s' ∧ Rests s s' := by
  have hmoved := step_aside hstep haside
  have htakes := step_takesOut hstep haside hhost
  refine ⟨⟨hmoved.current.trans h.idle, ?_, ?_⟩, hmoved.registration, htakes.history,
    fun work => htakes.awaits⟩
  · exact h.bare.retains (track_drift hstep haside []).toRetains
  · obtain ⟨threads, hwaiting, hthreads⟩ := htakes.waiting
    rw [hwaiting]
    intro thread hthread
    rcases List.mem_append.mp hthread with hold | hnew
    · exact h.tasks thread hold
    · obtain ⟨hpending, e, -, htaken⟩ := hthreads thread hnew
      exact ⟨hpending, by rw [htaken]; rfl⟩

/-- What has its turn is a start, or a renewal that ends at once. -/
theorem turn {index : Nat} (h : Quiet setup s)
    (hstep : Service.step setup s (.turn index) = some s') :
    Quiet setup s' ∧ Rests s s' ∨ StartsUp s s' := by
  obtain ⟨job, -, hindex, rfl⟩ := step_turn hstep fun thread hthread => (h.tasks thread hthread).1
  have hthread := List.mem_of_getElem? hindex
  cases job with
  | operation operation => cases (h.tasks _ hthread).2
  | task due number work =>
    have hhand : ⟨due, number, .work work⟩ ∈ inHand s.waiting :=
      List.mem_filterMap.mpr ⟨_, hthread, rfl⟩
    cases work with
    | start =>
      right
      obtain ⟨events, hevents⟩ := enter_of_start setup
        { s with waiting := s.waiting.eraseIdx index } due number
      refine ⟨⟨_, Or.inr hhand, rfl⟩, events ++ [.reported .started], ?_, by simp⟩
      rw [hevents, List.append_assoc]
      rfl
    | renewal generation =>
      left
      have hstale : s.client.registration.generation ≠ generation :=
        Nat.ne_of_gt (h.bare.hand _ hhand generation rfl)
      have hfewer : ∀ e ∈ inHand (s.waiting.eraseIdx index), e ∈ inHand s.waiting := by
        intro e he
        obtain ⟨thread, hmem, htaken⟩ := List.mem_filterMap.mp he
        exact List.mem_filterMap.mpr ⟨thread, List.mem_of_mem_eraseIdx hmem, htaken⟩
      rw [enter_of_stale (s := { s with waiting := s.waiting.eraseIdx index }) hstale]
      refine ⟨⟨h.idle, ⟨h.bare.live, fun e he => h.bare.hand e (hfewer e he)⟩, ?_⟩, rfl, ?_, ?_⟩
      · intro thread hmem
        exact h.tasks thread (List.mem_of_mem_eraseIdx hmem)
      · exact ⟨[.ended (.task due number (.renewal generation)) false, .reported .staleUpdate],
          rfl, by simp [Event.isQuiet]⟩
      · rintro work ⟨e, hwaits, htask⟩
        exact ⟨e, hwaits.imp_right (hfewer e), htask⟩

/-- A quiet engine stays so, unless a start has its turn. -/
theorem step {input : Input} (h : Quiet setup s) (hstep : Service.step setup s input = some s')
    (hhost : input.isHost = false) : Quiet setup s' ∧ Rests s s' ∨ StartsUp s s' := by
  by_cases haside : input.isAside = true
  · exact Or.inl (h.aside hstep haside hhost)
  · cases input with
    | turn index => exact h.turn hstep
    | answer answer =>
      obtain ⟨job, c, next, a, hcurrent, -, -⟩ := step_answer hstep
      cases h.idle.symm.trans hcurrent
    | fail =>
      obtain ⟨job, c, next, hcurrent, -, -⟩ := step_fail hstep
      cases h.idle.symm.trans hcurrent
    | _ => exact absurd rfl haside

theorem run {inputs : List Input} (h : Quiet setup s)
    (hrun : Service.run setup s inputs = some s')
    (hhost : ∀ input ∈ inputs, input.isHost = false) :
    Quiet setup s' ∧ Rests s s' ∨ StartsUp s s' := by
  induction inputs generalizing s with
  | nil =>
    cases hrun
    exact Or.inl ⟨h, Rests.refl _⟩
  | cons input rest ih =>
    obtain ⟨mid, hmid, hrest⟩ := Option.bind_eq_some_iff.mp hrun
    rcases h.step hmid (hhost input List.mem_cons_self) with ⟨hquiet, hrests⟩ | hstarts
    · rcases ih hquiet hrest fun x hx => hhost x (List.mem_cons_of_mem input hx) with
        ⟨hquiet', hrests'⟩ | hstarts
      · exact Or.inl ⟨hquiet', hrests.trans hrests'⟩
      · exact Or.inr (hrests.startsUp hstarts)
    · exact Or.inr (hstarts.run hrest)

end Quiet

/-! ### Stopping -/

/-- Where a stop was decisive last, no renewal is to start and those in hand are outdated. -/
theorem Account.bare_of_stopped {generation : Nat} {id : Option String} {marks : List Mark}
    {t : Track} (h : Account generation id marks t)
    (hstopped : marks.getLast? = some .stopped) : Bare t := by
  have hnone : ¬Outstanding t := by
    intro hout
    have hsome : marks ≠ [] := by
      rintro rfl
      cases hstopped
    obtain ⟨m, hlast, hsuccess⟩ := h.success hsome hout
    cases hstopped.symm.trans hlast
    cases hsuccess
  constructor
  · intro e he
    rw [← Bool.not_eq_true]
    intro hr
    exact hnone ⟨e, Or.inl he, (h.sane.live e he hr).2.1⟩
  · intro e he generation' htask
    refine Nat.lt_of_le_of_ne (h.sane.hand e he generation' htask).1 fun heq => ?_
    exact hnone ⟨e, Or.inr he, heq ▸ htask⟩

/-- An engine whose latest event is the end of a stop. -/
theorem quiet_of_stopped {scheduler : Scheduler Task} {inputs : List Input} {job : Job}
    {result : Bool} (hfresh : scheduler = .timeline {} ∨ scheduler = .worker {})
    (hrun : run setup (initial scheduler) inputs = some s) (hunfailing : Unfailing s.history)
    (hstopped : s.history.head? = some (.ended job result)) (hjob : job.isStop = true)
    (hidle : s.current = none) (halone : ∀ thread ∈ s.waiting, thread.job.taken?.isSome = true) :
    Quiet setup s := by
  have haccount := (Watch.of_run hfresh hrun hunfailing).idle hidle
  have hlast : (decisive (marksOf s.history)).getLast? = some .stopped := by
    obtain ⟨earlier, hhistory⟩ := List.head?_eq_some_iff.mp hstopped
    have hmark : (Event.ended job result).mark? = some .stopped := by
      rw [Event.mark?, hjob]
      rfl
    rw [hhistory, marksOf_cons, hmark, decisive_append]
    exact List.getLast?_concat
  have hwaiting := (Inv.of_run hfresh hrun).waiting
  exact ⟨hidle, haccount.bare_of_stopped hlast,
    fun thread hthread => ⟨hwaiting thread hthread, halone thread hthread⟩⟩

/-- Once a stop has ended, with whatever result, the engine neither sends a request
nor touches its registration until the host asks for something or a start that was
still to come has its turn. -/
theorem quiet_after_stop {scheduler : Scheduler Task} {inputs more : List Input} {job : Job}
    {result : Bool} {since : List Event}
    (hfresh : scheduler = .timeline {} ∨ scheduler = .worker {})
    (hrun : run setup (initial scheduler) inputs = some s) (hunfailing : Unfailing s.history)
    (hstopped : s.history.head? = some (.ended job result)) (hjob : job.isStop = true)
    (hidle : s.current = none) (halone : ∀ thread ∈ s.waiting, thread.job.taken?.isSome = true)
    (hmore : run setup s more = some s') (hhost : ∀ input ∈ more, input.isHost = false)
    (hsince : s'.history = since ++ s.history) :
    (s'.current = none ∧ s'.client.registration = s.client.registration ∧
        ∀ e ∈ since, e.isQuiet = true) ∨
      Awaits s .start ∧ .reported .started ∈ since := by
  have hquiet := quiet_of_stopped hfresh hrun hunfailing hstopped hjob hidle halone
  rcases hquiet.run hmore hhost with ⟨hquiet', hrests⟩ | hstarts
  · left
    obtain ⟨events, hevents, hall⟩ := hrests.history
    cases List.append_cancel_right (hsince.symm.trans hevents)
    exact ⟨hquiet'.idle, hrests.registration, hall⟩
  · right
    obtain ⟨events, hevents, hstarted⟩ := hstarts.history
    cases List.append_cancel_right (hsince.symm.trans hevents)
    exact ⟨hstarts.awaits, hstarted⟩

/-- The renewal is taken out, and the engine is stopped before it has its turn. The server does
not answer. -/
def stopping : List Input :=
  [.take .max, .operate .stop, .turn 1, .answer (.object (some sampleSecurities)),
    .answer (.object (some (sampleServers 30))), .answer (.response none)]

theorem quiet_once_stopped :
    ∃ s s' since, run sampleSetup (initial (.timeline {})) (registering 30 ++ stopping) = some s ∧
      s.history.head? = some (.ended (.operation .stop) false) ∧ inHand s.waiting ≠ [] ∧
      run sampleSetup s [.turn 0, .settle .max] = some s' ∧ s'.history = since ++ s.history ∧
      s'.current = none ∧ s'.client.registration = s.client.registration ∧
      ∀ e ∈ since, e.isQuiet = true := by
  have hpossible :
      (run sampleSetup (initial (.timeline {})) (registering 30 ++ stopping)).any fun s =>
      decide (s.hasEnded .stop false = true ∧ Unfailing s.history ∧ s.current.isNone ∧
        (∀ thread ∈ s.waiting, thread.job.taken?.isSome = true) ∧ inHand s.waiting ≠ [] ∧
        ¬Awaits s .start ∧ (run sampleSetup s [.turn 0, .settle .max]).isSome) := by
    decide +kernel
  obtain ⟨s, hrun, hcheck⟩ := (Option.any_eq_true _ _).mp hpossible
  obtain ⟨hstopped, hunfailing, hidle, halone, hhand, hnone, hmore⟩ := of_decide_eq_true hcheck
  obtain ⟨s', hmore⟩ := Option.isSome_iff_exists.mp hmore
  obtain ⟨since, hsince⟩ := run_extends hmore
  have hhead := head?_of_hasEnded hstopped
  rcases quiet_after_stop (Or.inl rfl) hrun hunfailing hhead rfl
    (Option.isNone_iff_eq_none.mp hidle)
      halone hmore (by simp [Input.isHost]) hsince
        with ⟨hidle', hregistration, hquiet⟩ | ⟨hstart, -⟩
  · exact ⟨s, s', since, hrun, hhead, hhand, hmore, hsince, hidle', hregistration, hquiet⟩
  · exact absurd hstart hnone

/-- A start has its turn, up to the Register request that it sends. -/
def startingUp : List Input :=
  [.take .zero, .turn 0, .answer (.object (some sampleSecurities)),
    .answer (.object (some (sampleServers 30))), .answer (.object (some sampleSecurities)),
    .answer (.object (some (sampleServers 30))), .answer (.ids [])]

/-- Whether a start is in progress and has asked to have its Register request sent. -/
def startSends (s : Service) : Bool :=
  match s.current with
  | some ⟨.task _ _ .start, .call (.send _ _ (.register ..) _) _⟩ => true
  | _ => false

theorem startSends_iff :
    startSends s = true ↔ ∃ due number peer secure endpoint lifetime binding links timeout,
      Asking s (.task due number .start)
        (.send peer secure (.register endpoint lifetime binding links) timeout) := by
  unfold startSends
  constructor
  · intro h
    split at h
    · rename_i due number peer secure endpoint lifetime binding links timeout next hcurrent
      exact ⟨due, number, peer, secure, endpoint, lifetime, binding, links,
        timeout, next, hcurrent⟩
    · cases h
  · rintro ⟨due, number, peer, secure, endpoint, lifetime, binding, links,
      timeout, next, hcurrent⟩
    rw [hcurrent]

/-- A stop does not reach a start that is still to come. The engine is started and stopped at
once, and then it registers without being asked again. -/
theorem start_outlives_stop :
    ∃ s s' due number peer secure endpoint lifetime binding links timeout,
      run sampleSetup (initial (.timeline {})) [.start, .operate .stop, .turn 0] = some s ∧
        Unfailing s.history ∧ s.history.head? = some (.ended (.operation .stop) true) ∧
        s.current = none ∧ s.waiting = [] ∧ run sampleSetup s startingUp = some s' ∧
        (∀ input ∈ startingUp, input.isHost = false) ∧
        Asking s' (.task due number .start)
          (.send peer secure (.register endpoint lifetime binding links) timeout) := by
  have hpossible :
      (run sampleSetup (initial (.timeline {})) [.start, .operate .stop, .turn 0]).any
      fun s => decide (s.hasEnded .stop true = true ∧ Unfailing s.history ∧ s.current.isNone ∧
        s.waiting.isEmpty) && (run sampleSetup s startingUp).any startSends := by
    decide +kernel
  obtain ⟨s, hrun, hcheck⟩ := (Option.any_eq_true _ _).mp hpossible
  obtain ⟨hat, hsends⟩ := Bool.and_eq_true_iff.mp hcheck
  obtain ⟨hstopped, hunfailing, hidle, halone⟩ := of_decide_eq_true hat
  obtain ⟨s', hmore, hsends⟩ := (Option.any_eq_true _ _).mp hsends
  obtain ⟨due, number, peer, secure, endpoint, lifetime, binding, links, timeout, hasking⟩ :=
    startSends_iff.mp hsends
  exact ⟨s, s', due, number, peer, secure, endpoint, lifetime, binding, links, timeout, hrun,
    hunfailing, head?_of_hasEnded hstopped, Option.isNone_iff_eq_none.mp hidle,
    List.isEmpty_iff.mp halone, hmore, by simp [startingUp, Input.isHost], hasking⟩

end Lwm2mClient.Service
