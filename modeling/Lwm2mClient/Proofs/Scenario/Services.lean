import Lwm2mClient.Proofs.Scenario.Mirrors
import Lwm2mClient.Proofs.Service.Runs

/-!
Scenarios as runs of an engine in service. Whatever happens in a world with one engine, a run of
the engine in service keeps up with it: the client is the same at every moment, and each operation
that is in progress in the world is in progress there. So whatever holds of the client in every
run of the service holds in every scenario.
-/
namespace Lwm2mClient.Scenario

open Net Engine
open Service (Becomes Job)

namespace World

variable {setup : Setup} {w w' w'' : World} {s s' : Service} {frame : Frame}
  {frames frames' rest : List Frame}

namespace Mirrors

/-! ### Tasks -/

/-- Work of the engine is started: it comes to where it waits for its turn. -/
theorem startWork (h : Mirrors setup frames w s) (hmade : w.IsMade setup) (due : Duration)
    (number : Nat) (work : Work) :
    Mirrors setup ((w.startTask (.work 0 work)).2 ++ frames) (w.startTask (.work 0 work)).1
      (Service.launch setup s (.task due number work)) := by
  obtain ⟨registration, hengine⟩ := hmade.engine
  have halive : w.isAlive 0 = true := by
    simp [isAlive, hmade.current_eq]
  have hstarted : w.startTask (.work 0 work) =
      (w, [.program 0 ((Job.task due number work).pending setup)]) := by
    simp only [World.startTask]
    rw [if_pos halive, hengine]
    dsimp only
    rw [h.home.setup_eq]
    cases work <;> rfl
  have hproceed : Service.proceed false ((Job.task due number work).program setup) s.client =
      { client := s.client, lines := [], holds := false
        rest := (Job.task due number work).pending setup } := by
    cases work <;> rfl
  obtain ⟨hclient, hcurrent, hseats⟩ :=
    Service.launch_seats_of_pending (.task due number work) hproceed
  rw [hstarted]
  refine h.go (hclient ▸ .refl _) (.refl w) (hclient.trans h.client) (hcurrent ▸ h.busy) ?_
  rw [hseats]
  exact coe_cons_add _ frames _ ▸ h.seated.cons (.waits hmade (.task due number work))

theorem startTask (h : Mirrors setup frames w s) (entry : Timeline.Entry Task)
    (hours : entry.task.served = .other ∨ w.IsMade setup) :
    Mirrors setup ((w.startTask entry.task).2 ++ frames) (w.startTask entry.task).1
      (Service.startTask setup s (entry.map Task.served)) := by
  obtain ⟨due, number, task⟩ := entry
  cases task with
  | body name steps =>
    have hbare : (w.note (.started name w.scheduler.now?)).bare = w.bare := rfl
    exact (h.of_bare hbare).add rfl
  | work e work =>
    cases e with
    | zero =>
      have hmade : w.IsMade setup := hours.resolve_left nofun
      exact h.startWork hmade due number work
    | succ e =>
      -- There is no such engine, so its work does nothing.
      have hstarted : w.startTask (.work (e + 1) work) = (w, [.steps [] []]) := by
        simp only [World.startTask, h.home.engine?_succ e]
        exact ite_self _
      rw [hstarted]
      exact h.add rfl

theorem advance {target : Duration} {started : Nat}
    (h : Mirrors setup (.advance target started :: rest) w s) :
    ∃ s', Becomes setup s s' ∧
      Mirrors setup (w.move (.advance target started) rest).2.frames
        (w.move (.advance target started) rest).1 s' := by
  have hservice := h.scheduler_eq
  simp only [move]
  cases hscheduler : w.scheduler with
  | worker k => exact ⟨s, .refl s, h.tail⟩
  | timeline t =>
    rw [hscheduler] at hservice
    change s.client.scheduler = .timeline (t.map Task.served) at hservice
    have hdue := t.takeDue?_map Task.served target
    dsimp only
    cases htake : t.takeDue? target with
    | none =>
      refine ⟨_, .of_step (.settle target) ?_,
        h.tail.withScheduler (.timeline (t.settle target)) ?_⟩
      · simp only [Service.step, hservice]
        rfl
      · rw [hservice]
        exact Scheduler.grows_settle (t.map Task.served) target
    | some due =>
      obtain ⟨entry, t'⟩ := due
      rw [htake] at hdue
      have hmem : entry.map Task.served ∈ s.client.scheduler.entries := by
        rw [hservice]
        change entry.map Task.served ∈ (t.map Task.served).queue
        rw [(Timeline.takeDue?_eq_some hdue).1]
        exact List.mem_cons_self
      have hmirrors := h.withScheduler (.timeline t')
        (hservice ▸ Scheduler.grows_takeDue? hdue)
      refine ⟨_, .of_step (.take target) ?_, hmirrors.startTask entry (h.ours _ hmem)⟩
      simp only [Service.step, hservice, hdue]
      rfl

theorem serve (h : Mirrors setup (.serve :: rest) w s) :
    ∃ s', Becomes setup s s' ∧
      Mirrors setup (w.move .serve rest).2.frames (w.move .serve rest).1 s' := by
  have hservice := h.scheduler_eq
  simp only [move]
  cases hscheduler : w.scheduler with
  | timeline t => exact ⟨s, .refl s, h.tail⟩
  | worker k =>
    rw [hscheduler] at hservice
    change s.client.scheduler = .worker (k.map Task.served) at hservice
    have hmoves := k.move?_map Task.served
    dsimp only
    cases hmove : k.move? with
    | none => exact ⟨s, .refl s, h.tail⟩
    | some moved =>
      obtain ⟨due?, k'⟩ := moved
      rw [hmove] at hmoves
      have hmirrors := h.withScheduler (.worker k')
        (hservice ▸ Scheduler.grows_move? hmoves)
      cases due? with
      | none =>
        refine ⟨_, .of_step .serve ?_, hmirrors⟩
        simp only [Service.step, hservice, hmoves]
        rfl
      | some entry =>
        have hmem : entry.map Task.served ∈ s.client.scheduler.entries := by
          have hqueued : entry ∈ k.queue := by
            cases (Worker.goes_of_move? hmove).2 with
            | starts _ others hqueue => exact hqueue ▸ List.mem_cons_self
          rw [hservice]
          exact Scheduler.mem_entries_worker.mpr (Or.inl (List.mem_map_of_mem hqueued))
        refine ⟨_, .of_step .serve ?_, hmirrors.startTask entry (h.ours _ hmem)⟩
        simp only [Service.step, hservice, hmoves]
        rfl

/-! ### Moves -/

/-- What a wait ends with is the answer that its operation goes on with. -/
theorem afterWait {e : Nat} {next : Bool → Program Bool}
    (h : Mirrors setup (.afterWait e next :: rest) w s) (finished : Bool) :
    Mirrors setup (.program e (next finished) :: rest) w s := by
  have hto : ∀ timeout, (Service.Answer.flag finished).to? (.awaitFinish timeout) =
      some finished := fun _ => rfl
  rcases (coe_cons_add _ rest _ ▸ h.seated).uncons with ⟨hsits, -⟩ | ⟨_, _, hsits, hseats, hrest⟩
  · cases hsits with
    | apart happart => cases happart
  · cases hsits with
    | awaits hmade job hwork timeout =>
      have hanswered := hrest.cons (.answered hmade job hwork (hto timeout))
      exact h.refit (coe_cons_add _ rest _ ▸ hseats ▸ hanswered)

/-- The answer to a request has arrived. -/
theorem replied {e : Nat} {answer : Option Response} {next : Option Response → Program Bool}
    (h : Mirrors setup (.reply e (.ok answer) next :: rest) w s) :
    Mirrors setup (.program e (next answer) :: rest) w s := by
  have hto : ∀ peer secure request timeout,
      (Service.Answer.response answer).to? (.send peer secure request timeout) = some answer :=
    fun _ _ _ _ => rfl
  rcases (coe_cons_add _ rest _ ▸ h.seated).uncons with ⟨hsits, -⟩ | ⟨_, _, hsits, hseats, hrest⟩
  · cases hsits with
    | apart happart => cases happart
  · cases hsits with
    | sends hmade job hwork peer secure request timeout =>
      have hanswered := hrest.cons
        (.answered hmade job hwork (hto peer secure request timeout))
      exact h.refit (coe_cons_add _ rest _ ▸ hseats ▸ hanswered)

/-- An operation is abandoned while its request is on its way. -/
theorem abandoned {e : Nat} {outcome : Except Fault (Option Response)}
    {next : Option Response → Program Bool}
    (h : Mirrors setup (.reply e outcome next :: rest) w s) :
    ∃ s', Becomes setup s s' ∧ Mirrors setup rest (w.release e) s' := by
  rcases (coe_cons_add _ rest _ ▸ h.seated).uncons with ⟨hsits, -⟩ | ⟨_, _, hsits, hseats, hrest⟩
  · cases hsits with
    | apart happart => cases happart
  · cases hsits with
    | sends hmade job hwork peer secure request timeout =>
      obtain ⟨s', hleft, hbecomes⟩ := Service.fail_of_seats setup rfl hseats
      refine ⟨s', hbecomes, h.go (hbecomes.grows.mono fun _ _ => Or.inr hmade)
        (release_stays w 0) (hleft.client.trans h.client) ?_ (hleft.seats ▸ hrest)⟩
      exact iff_of_false (not_mem_release w 0) (absurd hleft.current)

theorem move (h : Mirrors setup (frame :: rest) w s)
    (hhome : (w.move frame rest).1.IsHome setup) :
    ∃ s', Becomes setup s s' ∧
      Mirrors setup (w.move frame rest).2.frames (w.move frame rest).1 s' := by
  cases frame with
  | program e p =>
    rcases h.engine_eq with hnone | ⟨he, hmade⟩
    · cases hnone
    · cases he
      have hseated := h.seated.imp fun _ => trivial
      rw [coe_cons_add] at hseated
      obtain ⟨s', hbecomes, hfits⟩ := move_program ⟨hmade, h.client, h.busy, hseated⟩
      exact ⟨s', hbecomes, h.of_fits hmade hbecomes hfits⟩
  | reply e outcome next =>
    cases outcome with
    | error fault => exact h.abandoned
    | ok answer => exact ⟨s, .refl s, h.replied⟩
  | afterWait e next => exact ⟨s, .refl s, h.afterWait false⟩
  | steps remaining results =>
    cases remaining with
    | nil => exact ⟨s, .refl s, h.tail⟩
    | cons step steps => exact (h.replace rfl).takeStep step hhome
  | body task remaining =>
    cases remaining with
    | nil => exact ⟨s, .refl s, h.tail⟩
    | cons step steps => exact (h.replace rfl).takeStep step hhome
  | underway request remaining =>
    cases remaining with
    | nil => exact ⟨s, .refl s, h.tail⟩
    | cons step steps => exact (h.replace rfl).takeStep step hhome
  | advance target started => exact h.advance
  | serve => exact h.serve
  | sleep | workerEnd => exact ⟨s, .refl s, h.tail⟩
  | await session deadline =>
    have hreleased : w.Spares { w with gate := w.gate.release session } := rfl
    exact h.tail.spares hreleased

theorem deliver (h : Mirrors setup frames w s) (result : Result) :
    Mirrors setup (w.deliver result frames).2 (w.deliver result frames).1 s := by
  cases frames with
  | nil => exact h
  | cons frame rest =>
    cases frame with
    | afterWait e next => exact h.afterWait _
    | steps => exact h.replace rfl
    | body task remaining =>
      have hbare : (w.note (.result task result)).bare = w.bare := rfl
      exact (h.of_bare hbare).replace rfl
    | underway request remaining =>
      have hbare : (w.noteStep request result).bare = w.bare := by
        unfold noteStep
        split <;> rfl
      exact (h.of_bare hbare).replace rfl
    | advance => exact h.replace rfl
    | _ => exact h

/-- A failure unwinds a thread. Operations that wait for an answer are abandoned. -/
theorem unwind (h : Mirrors setup frames w s) :
    ∃ s', Becomes setup s s' ∧ Mirrors setup (w.unwind frames).2 (w.unwind frames).1 s' := by
  induction frames generalizing w s with
  | nil => exact ⟨s, .refl s, h⟩
  | cons frame rest ih =>
    cases frame with
    | advance => exact ⟨s, .refl s, h.replace rfl⟩
    | serve => exact ⟨s, .refl s, h⟩
    | reply e outcome next =>
      obtain ⟨s₁, hfirst, hmirrors⟩ := h.abandoned
      obtain ⟨s', hrest, hleft⟩ := ih hmirrors
      exact ⟨s', hfirst.trans hrest, hleft⟩
    | _ => exact ih h.tail

end Mirrors

/-! ### Turns -/

/-- Whatever happens, no engine is made but one, and it is never dropped. -/
def StaysHome (setup : Setup) : World → List Happening → Prop
  | _, [] => True
  | w, happening :: rest =>
    (w.happen happening).IsHome setup ∧ StaysHome setup (w.happen happening) rest

variable {t other : Thread}

theorem framesOf_append (threads others : List Thread) :
    framesOf (threads ++ others) = framesOf threads + framesOf others := by
  simp only [framesOf, List.flatMap_append, ← Multiset.coe_add]

theorem framesOf_cons (t : Thread) (threads : List Thread) :
    framesOf (t :: threads) = t.frames + framesOf threads := by
  simp only [framesOf, List.flatMap_cons, ← Multiset.coe_add]

theorem framesOf_singleton (t : Thread) : framesOf [t] = t.frames := by
  rw [framesOf, List.flatMap_singleton]

/-- Where some threads are dropped, so is what they have to do. -/
theorem framesOf_filter (kept : Thread → Bool) (threads : List Thread) :
    ∃ dropped, framesOf threads = dropped + framesOf (threads.filter kept) := by
  induction threads with
  | nil => exact ⟨0, rfl⟩
  | cons t rest ih =>
    obtain ⟨dropped, hdropped⟩ := ih
    by_cases ht : kept t = true
    · refine ⟨dropped, ?_⟩
      rw [List.filter_cons_of_pos ht, framesOf_cons, framesOf_cons, hdropped,
        ← Multiset.add_assoc, ← Multiset.add_assoc, Multiset.add_comm dropped]
    · refine ⟨t.frames + dropped, ?_⟩
      rw [List.filter_cons_of_neg ht, framesOf_cons, hdropped, Multiset.add_assoc]

theorem IsHome.of_post (h : w'.IsHome setup) (hpost : w'.post = w.post) : w.IsHome setup :=
  h.imp hpost.symm.trans hpost.symm.trans

theorem putBack_post (w : World) (t : Thread) : (w.putBack t).post = w.post := by
  unfold putBack
  split <;> rfl

theorem deliver_post (w : World) (result : Result) (frames : List Frame) :
    (w.deliver result frames).1.post = w.post := by
  cases frames with
  | nil => rfl
  | cons frame rest =>
    cases frame with
    | underway request remaining =>
      change (w.noteStep request result).post = w.post
      unfold noteStep
      split <;> rfl
    | _ => rfl

theorem unwind_post (w : World) (frames : List Frame) : (w.unwind frames).1.post = w.post := by
  induction frames generalizing w with
  | nil => rfl
  | cons frame rest ih =>
    cases frame with
    | advance | serve => rfl
    | reply e outcome next => exact ih (w.release e)
    | _ => exact ih w

theorem spawn_post (w : World) (work : Aside) (t : Thread) : (w.spawn work t).post = w.post := by
  cases work with
  | steps delay steps => rfl
  | shutdown =>
    simp only [spawn]
    split
    · rfl
    · exact putBack_post _ t
  | advance span =>
    simp only [spawn]
    split
    · split
      · rfl
      · exact putBack_post _ t
    · exact putBack_post _ t

namespace Mirrors

theorem withThreads (h : Mirrors setup frames w s) {threads : List Thread}
    (hframes : frames' + framesOf threads = frames + framesOf w.threads) :
    Mirrors setup frames' { w with threads } s :=
  ⟨h.home, h.client, h.busy, (hframes ▸ h.seated :), h.numbered, h.ours, h.handles⟩

/-- A thread that was taken out of the world comes back with what it has to do. -/
theorem comeBack (h : Mirrors setup frames w s) {threads : List Thread}
    (hframes : framesOf threads = frames + framesOf w.threads) :
    Mirrors setup [] { w with threads } s :=
  h.withThreads ((Multiset.zero_add _).trans hframes)

theorem putBack (h : Mirrors setup t.frames w s) : Mirrors setup [] (w.putBack t) s := by
  unfold World.putBack
  split
  · refine h.comeBack ?_
    rw [framesOf_append, framesOf_singleton, Multiset.add_comm]
  · exact h.comeBack (framesOf_cons t w.threads)

theorem settle (h : Mirrors setup [] w s) (role : Role) (result : Result) :
    Mirrors setup [] (w.settle role result) s := by
  have hbare : (w.settle role result).bare = w.bare := rfl
  exact h.of_bare hbare

theorem startAtOnce (h : Mirrors setup (other.frames ++ t.frames) w s) :
    Mirrors setup [] (w.startAtOnce other t) s := by
  refine h.comeBack ?_
  rw [framesOf_append, framesOf_cons, framesOf_singleton, ← Multiset.coe_add,
    Multiset.add_comm (framesOf _)]

theorem spawn (h : Mirrors setup t.frames w s) (work : Aside) :
    Mirrors setup [] (w.spawn work t) s := by
  have hnumbered : Mirrors setup t.frames { w with asides := w.asides + 1 } s := by
    have hbare : ({ w with asides := w.asides + 1 } : World).bare = w.bare := rfl
    exact h.of_bare hbare
  have hended : ∀ result,
      Mirrors setup []
        ((({ w with asides := w.asides + 1 } : World).settle (.aside w.asides) result).putBack t)
        s := by
    intro result
    have hbare : (({ w with asides := w.asides + 1 } : World).settle (.aside w.asides)
        result).bare = w.bare := rfl
    exact (h.of_bare hbare).putBack
  cases work with
  | steps delay steps =>
    let later : List Frame :=
      [.sleep (w.elapsed.saturatingAdd (.ofNanos (delay * 1000000))), .steps steps []]
    have hlater : Mirrors setup (later ++ t.frames) { w with asides := w.asides + 1 } s :=
      (hnumbered.add rfl).add rfl
    refine hlater.comeBack ?_
    rw [framesOf_append, framesOf_cons, framesOf_singleton, ← Multiset.coe_add,
      Multiset.add_comm]
    exact (Multiset.add_assoc _ _ _).symm
  | shutdown =>
    simp only [World.spawn]
    split
    · rename_i e engine hcurrent hengine
      obtain ⟨rfl, hmade⟩ := h.home.isMade hcurrent
      have hfirst : w.engine? 0 = some engine := by
        have hfound : w.currentEngine? = some engine := hengine
        rw [currentEngine?, hcurrent] at hfound
        exact hfound
      exact startAtOnce (hnumbered.operate hmade hfirst .shutdown)
    · exact hended .nothing
  | advance span =>
    simp only [World.spawn]
    split
    · split
      · exact startAtOnce (hnumbered.add rfl)
      · exact hended _
    · exact hended .nothing

theorem turn (h : Mirrors setup t.frames w s) (hhome : (w.turn t).IsHome setup) :
    ∃ s', Becomes setup s s' ∧ Mirrors setup [] (w.turn t) s' := by
  obtain ⟨role, _ | ⟨frame, rest⟩⟩ := t
  · exact ⟨s, .refl s, settle h role .nothing⟩
  · have hframes : Mirrors setup (frame :: rest) w s := h
    have hmoved := hframes.move
    simp only [World.turn] at hhome ⊢
    generalize w.move frame rest = moved at hmoved hhome ⊢
    obtain ⟨w', next⟩ := moved
    cases next with
    | goOn frames =>
      obtain ⟨s', hbecomes, hmirrors⟩ := hmoved (hhome.of_post (putBack_post w' _))
      exact ⟨s', hbecomes, putBack hmirrors⟩
    | deliver result frames =>
      cases frames with
      | nil =>
        obtain ⟨s', hbecomes, hmirrors⟩ := hmoved (hhome.of_post rfl)
        exact ⟨s', hbecomes, settle hmirrors role result⟩
      | cons behind others =>
        have hpost := deliver_post w' result (behind :: others)
        obtain ⟨s', hbecomes, hmirrors⟩ :=
          hmoved (hhome.of_post ((putBack_post _ _).trans hpost))
        exact ⟨s', hbecomes, putBack (hmirrors.deliver result)⟩
    | failed fault frames =>
      have hpost := unwind_post w' frames
      have hunwinds := fun s₁ (h₁ : Mirrors setup frames w' s₁) => h₁.unwind
      dsimp only at hhome ⊢
      generalize w'.unwind frames = unwound at hpost hunwinds hhome ⊢
      obtain ⟨w'', left⟩ := unwound
      have hhome' : w'.IsHome setup := by
        cases left with
        | nil => exact hhome.of_post hpost
        | cons behind others =>
          have hreported := post_of_bare (report_bare w'' [.taskFailed])
          exact hhome.of_post ((putBack_post _ _).trans (hreported.trans hpost))
      obtain ⟨s₁, hfirst, hmirrors⟩ := hmoved hhome'
      obtain ⟨s', hrest, hleft⟩ := hunwinds s₁ hmirrors
      refine ⟨s', hfirst.trans hrest, ?_⟩
      cases left with
      | nil => exact settle hleft role (.failed fault)
      | cons behind others => exact putBack (hleft.of_bare (report_bare w'' [.taskFailed]))
    | spawn work frames =>
      have hpost := deliver_post w' .nothing frames
      obtain ⟨s', hbecomes, hmirrors⟩ :=
        hmoved (hhome.of_post ((spawn_post _ _ _).trans hpost))
      exact ⟨s', hbecomes, spawn (hmirrors.deliver .nothing) work⟩

theorem tick (h : Mirrors setup [] w s) (hhome : w.tick.IsHome setup) :
    ∃ s', Becomes setup s s' ∧ Mirrors setup [] w.tick s' := by
  unfold World.tick at hhome ⊢
  cases hready : w.takeReady with
  | some ready =>
    obtain ⟨t, w'⟩ := ready
    obtain ⟨blocked, others, hthreads, rfl⟩ := takeReady_eq_some hready
    have hframes : t.frames + framesOf (blocked ++ others) = framesOf w.threads := by
      rw [hthreads, framesOf_append, framesOf_append, framesOf_cons, ← Multiset.add_assoc,
        ← Multiset.add_assoc, Multiset.add_comm (t.frames : Multiset Frame)]
    rw [hready] at hhome
    exact turn (h.withThreads (hframes.trans (Multiset.zero_add _).symm)) hhome
  | none =>
    dsimp only
    split
    · rename_i instant _
      have hpassed : (w.scheduler.passUntil instant).map Task.served =
          s.client.scheduler.passUntil instant := by
        rw [h.scheduler_eq, Scheduler.passUntil_map]
      have hmirrors := h.withScheduler (w.scheduler.passUntil instant)
        (hpassed ▸ Scheduler.grows_passUntil _ instant)
      refine ⟨_, .of_step (.pass instant) ?_, hmirrors.of_bare rfl⟩
      rw [hpassed]
      rfl
    · exact ⟨s, .refl s, h⟩

theorem happen (h : Mirrors setup [] w s) (happening : Happening)
    (hhome : (w.happen happening).IsHome setup) :
    ∃ s', Becomes setup s s' ∧ Mirrors setup [] (w.happen happening) s' := by
  cases happening with
  | begin step =>
    have hbegun : Mirrors setup [.steps [step] []] w s := h.add rfl
    exact ⟨s, .refl s, hbegun.comeBack (framesOf_cons ⟨.main, [.steps [step] []]⟩ w.threads)⟩
  | tick => exact h.tick hhome
  | join =>
    obtain ⟨dropped, hdropped⟩ := framesOf_filter (·.role = .worker) w.threads
    refine ⟨s, .refl s, ?_⟩
    have hleft :
        Mirrors setup [] { w with threads := w.threads.filter (·.role = .worker) } s := by
      have hseated : Seated setup (w.IsMade setup)
          (framesOf (w.threads.filter (·.role = .worker))) s.seats := by
        have hall := h.seated
        rw [Multiset.coe_nil, Multiset.zero_add, hdropped] at hall
        exact hall.of_add
      exact ⟨h.home, h.client, h.busy, (Multiset.zero_add _).symm ▸ hseated, h.numbered, h.ours,
        h.handles⟩
    exact hleft.of_bare rfl
  | told => exact ⟨s, .refl s, h.of_bare rfl⟩

theorem after (h : Mirrors setup [] w s) {happenings : List Happening}
    (hhome : StaysHome setup w happenings) :
    ∃ s', Becomes setup s s' ∧ Mirrors setup [] (w.after happenings) s' := by
  induction happenings generalizing w s with
  | nil => exact ⟨s, .refl s, h⟩
  | cons happening rest ih =>
    obtain ⟨hnext, hothers⟩ := hhome
    obtain ⟨s₁, hfirst, hmirrors⟩ := h.happen happening hnext
    obtain ⟨s', hrest, hleft⟩ := ih hmirrors hothers
    exact ⟨s', hfirst.trans hrest, hleft⟩

/-- Where nothing has happened yet, the engine has nothing to do. -/
theorem of_fresh {scheduler : Scheduler Service.Task} (hpost : w.post = (setup.hosts, none, #[]))
    (hserved : w.served = { scheduler }) (hentries : scheduler.entries = [])
    (hbusy : w.busy = []) (hhandles : w.handles = [])
    (hapart : ∀ t ∈ w.threads, ∀ frame ∈ t.frames, frame.engine? = none) :
    Mirrors setup [] w (Service.initial scheduler) := by
  have hnone : ∀ e, e ∉ (Service.initial scheduler).client.scheduler.entries := by
    intro e he
    change e ∈ scheduler.entries at he
    rw [hentries] at he
    cases he
  refine ⟨Or.inr hpost, hserved.symm, ?_, .of_apart ?_, ?_, ?_, ?_⟩
  · rw [hbusy]
    exact iff_of_false List.not_mem_nil (absurd rfl)
  · intro frame hframe
    rw [Multiset.coe_nil, Multiset.zero_add] at hframe
    obtain ⟨t, ht, hmem⟩ := List.mem_flatMap.mp (Multiset.mem_coe.mp hframe)
    exact hapart t ht frame hmem
  · exact fun e he => absurd he (hnone e)
  · exact fun e he => absurd he (hnone e)
  · rw [hhandles]
    exact fun entry hentry => absurd hentry List.not_mem_nil

theorem initial {s : Scenario} (hhosts : setup.hosts = s.hosts) :
    ∃ scheduler, (scheduler = .timeline {} ∨ scheduler = .worker {}) ∧
      Mirrors setup [] s.initial (Service.initial scheduler) := by
  have hpost : s.initial.post = (setup.hosts, none, #[]) := by
    simp [post, Scenario.initial, hhosts]
  cases hworker : s.onWorker with
  | false =>
    have hthreads : s.initial.threads = [] := by simp [Scenario.initial, hworker]
    have hserved : s.initial.served = { scheduler := .timeline {} } := by
      simp only [served, Scenario.initial, hworker]
      rfl
    refine ⟨.timeline {}, Or.inl rfl, of_fresh hpost hserved rfl rfl rfl ?_⟩
    rw [hthreads]
    exact fun t ht => absurd ht List.not_mem_nil
  | true =>
    have hthreads : s.initial.threads = [⟨.worker, [.serve]⟩] := by
      simp [Scenario.initial, hworker]
    have hserved : s.initial.served = { scheduler := .worker {} } := by
      simp only [served, Scenario.initial, hworker]
      rfl
    refine ⟨.worker {}, Or.inr rfl, of_fresh hpost hserved rfl rfl rfl ?_⟩
    rw [hthreads]
    exact List.forall_mem_singleton.mpr (List.forall_mem_singleton.mpr rfl)

end Mirrors

/-- Whatever happens in a scenario, as long as no engine is made but one, a run of the engine in
service comes to the same client, with the same operations in progress. -/
theorem exists_run_of_scenario {setup : Setup} {s : Scenario} {happenings : List Happening}
    (hhosts : setup.hosts = s.hosts) (hhome : StaysHome setup s.initial happenings) :
    ∃ scheduler inputs service, (scheduler = .timeline {} ∨ scheduler = .worker {}) ∧
      Service.run setup (Service.initial scheduler) inputs = some service ∧
      Mirrors setup [] (s.initial.after happenings) service := by
  obtain ⟨scheduler, hfresh, hmirrors⟩ := Mirrors.initial hhosts
  obtain ⟨service, ⟨inputs, hrun⟩, hleft⟩ := hmirrors.after hhome
  exact ⟨scheduler, inputs, service, hfresh, hrun, hleft⟩

/-- While no operation is in progress in a scenario, at most one renewal waits on its timeline,
and it is the one for the present registration. -/
theorem backed_of_scenario {setup : Setup} {s : Scenario} {happenings : List Happening}
    (hhosts : setup.hosts = s.hosts) (hhome : StaysHome setup s.initial happenings)
    (hidle : 0 ∉ (s.initial.after happenings).busy) {t : Timeline Task}
    (ht : (s.initial.after happenings).scheduler = .timeline t) :
    Service.Backed (t.map Task.served) (s.initial.after happenings).served.registration := by
  obtain ⟨scheduler, inputs, service, hfresh, hrun, hmirrors⟩ :=
    exists_run_of_scenario hhosts hhome
  have hinv : Service.Inv setup service := Service.Inv.of_run hfresh hrun
  have hcurrent : service.current = none := by
    by_contra hcurrent
    exact hidle (hmirrors.busy.mpr hcurrent)
  have hscheduler : service.client.scheduler = .timeline (t.map Task.served) := by
    rw [hmirrors.scheduler_eq, ht]
    rfl
  rw [← hmirrors.client]
  exact (hinv.resting hcurrent).sound.backed _ hscheduler

instance (setup : Setup) (w : World) : Decidable (w.IsHome setup) :=
  inferInstanceAs (Decidable (_ = _ ∨ _ = _))

instance decidableStaysHome (setup : Setup) :
    ∀ (w : World) (happenings : List Happening), Decidable (StaysHome setup w happenings)
  | _, [] => inferInstanceAs (Decidable True)
  | w, happening :: rest =>
    have := decidableStaysHome setup (w.happen happening) rest
    inferInstanceAs (Decidable (_ ∧ _))

example : StaysHome ⟨{}, {}⟩ ({} : Scenario).initial
    [.begin (.putSecurity 0 (.plain "coap://10.0.0.1" 1)), .tick, .tick,
      .begin (.putServer 0 ⟨1, 60, "U"⟩), .tick, .tick, .begin (.makeEngine []), .tick, .tick,
      .begin (.operate .register), .tick, .tick, .tick] := by
  decide +kernel

end World
end Lwm2mClient.Scenario
