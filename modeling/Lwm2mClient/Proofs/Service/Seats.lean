import Lwm2mClient.Proofs.Service.Moves
import Lwm2mClient.Proofs.Timeline.Growth
import Mathlib.Data.Multiset.AddSub
import Mathlib.Data.Multiset.MapFold

/-!
The threads of a service, each in its place. A thread has its turn, waits for it, or has given it
up and not returned; an input moves one thread at most from its place and leaves the others where
they are. Meanwhile the tasks on the timeline only become more by being handed over.
-/
namespace Lwm2mClient.Service

open Engine
open Scheduler (Grows)

/-- A thread that has not returned, in its place. -/
inductive Seat where
  | holds (thread : Thread)
  | waits (thread : Thread)
  | leaves (departure : Departure)

/-- The threads that have not returned. -/
def seats (s : Service) : Multiset Seat :=
  (s.current.toList.map .holds : List Seat) + (s.waiting.map .waits : List Seat) +
    (s.leaving.map .leaves : List Seat)

variable {setup : Setup} {s s' s'' : Service} {job : Job} {thread : Thread}
  {others : Multiset Seat}

/-! ### Runs -/

/-- Some inputs lead from a service to another one. -/
def Becomes (setup : Setup) (s s' : Service) : Prop := ∃ inputs, run setup s inputs = some s'

theorem Becomes.refl (s : Service) : Becomes setup s s := ⟨[], rfl⟩

theorem Becomes.trans (h : Becomes setup s s') (h' : Becomes setup s' s'') :
    Becomes setup s s'' := by
  obtain ⟨inputs, hrun⟩ := h
  obtain ⟨more, hmore⟩ := h'
  refine ⟨inputs ++ more, ?_⟩
  rw [run_append, hrun]
  exact hmore

theorem Becomes.of_step (input : Input) (hstep : step setup s input = some s') :
    Becomes setup s s' := ⟨[input], by rw [run, hstep]; rfl⟩

/-! ### Tasks -/

theorem proceed_grows {α : Type} (holds : Bool) (p : Program α) (client : Client Task) :
    Grows (fun _ => True) client.scheduler (proceed holds p client).client.scheduler := by
  induction p generalizing holds client with
  | done value => exact .refl _
  | call c next ih =>
    by_cases hc : c = .release
    · subst hc
      exact .refl _
    · cases hreply : client.answer? .work c with
      | none =>
        rw [proceed_of_none hc hreply]
        exact .refl _
      | some reply =>
        have hanswered : Grows (fun _ => True) client.scheduler reply.client.scheduler := by
          cases c with
          | schedule =>
            cases hreply
            exact Scheduler.grows_schedule _ _ trivial
          | cancelTask =>
            cases hreply
            exact Scheduler.grows_cancel ..
          | shutDownTimeline =>
            cases hreply
            exact Scheduler.grows_shutdown _
          | acquire | release | objectIds | readObject | deleteInstance | send | awaitFinish =>
            cases hreply
          | _ =>
            cases hreply
            exact .refl _
        rw [proceed_of_reply hreply]
        exact hanswered.trans (ih reply.answer holds reply.client)

theorem enter_grows (s : Service) (holds : Bool) (job : Job) (p : Program Bool) :
    Grows (fun _ => True) s.client.scheduler (s.enter holds job p).client.scheduler := by
  rw [enter_client]
  exact proceed_grows holds p s.client

theorem startTask_scheduler (setup : Setup) (s : Service) (entry : Timeline.Entry Task) :
    (startTask setup s entry).client.scheduler = s.client.scheduler := by
  unfold startTask
  split
  · exact (launched setup s _).scheduler
  · rfl

theorem step_grows {input : Input} (hstep : step setup s input = some s') :
    Grows (fun _ => True) s.client.scheduler s'.client.scheduler := by
  cases input with
  | operate operation =>
    cases hstep
    exact (launched setup s (.operation operation)).scheduler ▸ .refl _
  | start | schedule =>
    cases hstep
    exact Scheduler.grows_schedule _ _ trivial
  | turn index =>
    simp only [step] at hstep
    split at hstep
    · cases hstep
      exact enter_grows { s with waiting := s.waiting.eraseIdx index } _ _ _
    · cases hstep
  | answer answer =>
    obtain ⟨job, c, next, a, -, -, rfl⟩ := step_answer hstep
    exact enter_grows ({ s with current := none }.note (.answered c a s.client.scheduler.clock))
      true job (next a)
  | fail =>
    obtain ⟨job, c, next, -, -, rfl⟩ := step_fail hstep
    exact .refl _
  | gate gate =>
    cases hstep
    exact .refl _
  | cancel number =>
    simp only [step] at hstep
    split at hstep
    · cases hstep
      exact Scheduler.grows_cancel ..
    · cases hstep
  | shutDownTimeline =>
    cases hstep
    exact Scheduler.grows_shutdown _
  | windUp index onWorker =>
    obtain ⟨job, next, waits, -, rfl⟩ := step_windUp hstep
    exact Scheduler.grows_shutdown _
  | goBack index =>
    obtain ⟨job, result, waits, -, rfl⟩ := step_goBack hstep
    exact .refl _
  | take target =>
    simp only [step] at hstep
    split at hstep
    · rename_i t hscheduler
      obtain ⟨⟨entry, t'⟩, htake, rfl⟩ := Option.map_eq_some_iff.mp hstep
      rw [startTask_scheduler, hscheduler]
      exact Scheduler.grows_takeDue? htake
    · cases hstep
  | settle target =>
    simp only [step] at hstep
    split at hstep
    · rename_i t hscheduler
      cases hstep
      exact hscheduler ▸ Scheduler.grows_settle t target
    · cases hstep
  | serve =>
    simp only [step] at hstep
    split at hstep
    · cases hstep
    · rename_i w hscheduler
      obtain ⟨⟨due?, w'⟩, hmove, rfl⟩ := Option.map_eq_some_iff.mp hstep
      cases due? with
      | none => exact hscheduler ▸ Scheduler.grows_move? hmove
      | some entry =>
        dsimp only
        rw [startTask_scheduler, hscheduler]
        exact Scheduler.grows_move? hmove
  | pass instant =>
    cases hstep
    exact Scheduler.grows_passUntil _ _

theorem Becomes.grows (h : Becomes setup s s') :
    Grows (fun _ => True) s.client.scheduler s'.client.scheduler := by
  obtain ⟨inputs, hrun⟩ := h
  refine run_induction (P := fun x => Grows (fun _ => True) s.client.scheduler x.client.scheduler)
    (fun x input x' hx hstep => hx.trans (step_grows hstep)) (.refl _) hrun

/-! ### What an input does to a thread -/

theorem mem_seats {seat : Seat} : seat ∈ s.seats ↔
    (∃ thread, s.current = some thread ∧ .holds thread = seat) ∨
      (∃ thread ∈ s.waiting, .waits thread = seat) ∨
      ∃ departure ∈ s.leaving, .leaves departure = seat := by
  simp [seats]

theorem coe_map_of_getElem? {α β : Type} (f : α → β) {xs : List α} {index : Nat} {x : α}
    (h : xs[index]? = some x) :
    (xs.map f : Multiset β) = f x ::ₘ ((xs.eraseIdx index).map f : List β) := by
  obtain ⟨hlt, rfl⟩ := List.getElem?_eq_some_iff.mp h
  exact Multiset.coe_eq_coe.mpr ((List.getElem_cons_eraseIdx_perm hlt).map f).symm

/-- Whoever has its turn leaves its place free. -/
theorem seats_of_holds (h : s.seats = .holds thread ::ₘ others) :
    s.current = some thread ∧ ({ s with current := none } : Service).seats = others := by
  have hmem : Seat.holds thread ∈ s.seats := h ▸ Multiset.mem_cons_self _ _
  have hcurrent : s.current = some thread := by
    rcases mem_seats.mp hmem with ⟨_, hcurrent, hsame⟩ | ⟨_, -, hsame⟩ | ⟨_, -, hsame⟩
    · cases hsame
      exact hcurrent
    · cases hsame
    · cases hsame
  refine ⟨hcurrent, (Multiset.cons_inj_right (.holds thread)).mp (h ▸ ?_)⟩
  simp [seats, hcurrent]

/-- Whoever waits for its turn can be found and taken out. -/
theorem seats_of_waits (h : s.seats = .waits thread ::ₘ others) :
    ∃ index : Nat, s.waiting[index]? = some thread ∧
      ({ s with waiting := s.waiting.eraseIdx index } : Service).seats = others := by
  have hmem : Seat.waits thread ∈ s.seats := h ▸ Multiset.mem_cons_self _ _
  have hwaits : thread ∈ s.waiting := by
    rcases mem_seats.mp hmem with ⟨_, -, hsame⟩ | ⟨_, hwaits, hsame⟩ | ⟨_, -, hsame⟩
    · cases hsame
    · cases hsame
      exact hwaits
    · cases hsame
  obtain ⟨index, hindex⟩ := List.mem_iff_getElem?.mp hwaits
  refine ⟨index, hindex, (Multiset.cons_inj_right (.waits thread)).mp (h ▸ ?_)⟩
  simp only [seats, coe_map_of_getElem? Seat.waits hindex, Multiset.cons_add,
    Multiset.add_cons]

/-- Whoever has given up its turn can be found. Others may come into its place. -/
theorem seats_of_leaves {departure : Departure} (h : s.seats = .leaves departure ::ₘ others) :
    ∃ index : Nat, s.leaving[index]? = some departure ∧
      ({ s with leaving := s.leaving.eraseIdx index } : Service).seats = others ∧
      ∀ departure', ({ s with leaving := s.leaving.set index departure' } : Service).seats =
        .leaves departure' ::ₘ others := by
  have hmem : Seat.leaves departure ∈ s.seats := h ▸ Multiset.mem_cons_self _ _
  have hleaves : departure ∈ s.leaving := by
    rcases mem_seats.mp hmem with ⟨_, -, hsame⟩ | ⟨_, -, hsame⟩ | ⟨_, hleaves, hsame⟩
    · cases hsame
    · cases hsame
    · cases hsame
      exact hleaves
  obtain ⟨index, hindex⟩ := List.mem_iff_getElem?.mp hleaves
  have herased : ({ s with leaving := s.leaving.eraseIdx index } : Service).seats = others := by
    refine (Multiset.cons_inj_right (.leaves departure)).mp (h ▸ ?_)
    simp only [seats, coe_map_of_getElem? Seat.leaves hindex, Multiset.add_cons]
  refine ⟨index, hindex, herased, fun departure' => ?_⟩
  obtain ⟨hlt, -⟩ := List.getElem?_eq_some_iff.mp hindex
  have hset : (s.leaving.set index departure')[index]? = some departure' :=
    List.getElem?_set_self hlt
  rw [← herased]
  simp only [seats, coe_map_of_getElem? Seat.leaves hset, Multiset.add_cons,
    List.eraseIdx_set_eq]

/-- A thread has left its place, and nobody has its turn. -/
structure Vacates (s : Service) (others : Multiset Seat) (s' : Service) : Prop where
  client : s'.client = s.client
  current : s'.current = none
  seats : s'.seats = others

/-- Whoever waits has its turn. -/
theorem turn_of_seats (setup : Setup) (hidle : s.current = none)
    (h : s.seats = .waits ⟨job, job.pending setup⟩ ::ₘ others) :
    ∃ s₁, s.Vacates others s₁ ∧
      Becomes setup s (s₁.enter true job (job.body setup >>= job.close)) := by
  obtain ⟨index, hindex, hothers⟩ := seats_of_waits h
  exact ⟨{ s with waiting := s.waiting.eraseIdx index }, ⟨rfl, hidle, hothers⟩,
    .of_step (.turn index) (step_of_pending hidle hindex)⟩

variable {c : Call} {next : c.Answer → Program Bool}

/-- Whoever waits for an answer gets it. -/
theorem answer_of_seats (setup : Setup) {answer : Answer} {a : c.Answer}
    (ha : answer.to? c = some a) (h : s.seats = .holds ⟨job, .call c next⟩ ::ₘ others) :
    ∃ s₁, s.Vacates others s₁ ∧ Becomes setup s (s₁.enter true job (next a)) := by
  obtain ⟨hcurrent, hothers⟩ := seats_of_holds h
  refine ⟨{ s with current := none }.note (.answered c a s.client.scheduler.clock),
    ⟨rfl, rfl, hothers⟩, .of_step (.answer answer) ?_⟩
  simp only [step, hcurrent, ha, Option.map_some]

theorem fail_of_seats (setup : Setup) (hfails : canFail c = true)
    (h : s.seats = .holds ⟨job, .call c next⟩ ::ₘ others) :
    ∃ s₁, s.Vacates others s₁ ∧ Becomes setup s s₁ := by
  obtain ⟨hcurrent, hothers⟩ := seats_of_holds h
  refine ⟨{ s with current := none }.note (.failed job c), ⟨rfl, rfl, hothers⟩,
    .of_step .fail ?_⟩
  simp only [step, hcurrent, hfails, if_true]

/-- Whoever has given up its turn shuts the timeline down, and need not wait. -/
theorem windUp_of_seats (setup : Setup) {next : Unit → Program Bool} {waits : Bool}
    (h : s.seats = .leaves ⟨⟨job, .call .shutDownTimeline next⟩, waits⟩ ::ₘ others) :
    ∃ s₁, Becomes setup s s₁ ∧ s₁.current = s.current ∧
      s₁.client = { s.client with scheduler := s.client.scheduler.shutdown } ∧
      s₁.seats = .leaves ⟨⟨job, next ()⟩, false⟩ ::ₘ others := by
  obtain ⟨index, hindex, -, hset⟩ := seats_of_leaves h
  refine ⟨{ s.withScheduler s.client.scheduler.shutdown with
    leaving := s.leaving.set index ⟨⟨job, next ()⟩, false⟩ },
    .of_step (.windUp index true) ?_, rfl, rfl, hset _⟩
  simp only [step, hindex, Bool.not_true, Bool.and_false]

theorem goBack_of_seats (setup : Setup) {result : Bool}
    (h : s.seats = .leaves ⟨⟨job, .done result⟩, false⟩ ::ₘ others) :
    ∃ s₁, Becomes setup s s₁ ∧ s₁.current = s.current ∧ s₁.client = s.client ∧
      s₁.seats = others := by
  obtain ⟨index, hindex, hothers, -⟩ := seats_of_leaves h
  refine ⟨{ s with leaving := s.leaving.eraseIdx index }.note (.returned job result),
    .of_step (.goBack index) ?_, rfl, rfl, hothers⟩
  simp only [step, hindex, Bool.false_and, Bool.false_eq_true, if_false]

/-! ### What becomes of a thread -/

theorem seats_of_waiting_append (s : Service) (thread : Thread) :
    ({ s with waiting := s.waiting ++ [thread] } : Service).seats =
      .waits thread ::ₘ s.seats := by
  simp only [seats, List.map_append, ← Multiset.coe_add, List.map_singleton,
    Multiset.coe_singleton, Multiset.add_comm _ {_}, Multiset.singleton_add, Multiset.add_cons,
    Multiset.cons_add]

theorem seats_of_leaving_append (s : Service) (departure : Departure) :
    ({ s with leaving := s.leaving ++ [departure] } : Service).seats =
      .leaves departure ::ₘ s.seats := by
  simp only [seats, List.map_append, ← Multiset.coe_add, List.map_singleton,
    Multiset.coe_singleton, Multiset.add_comm _ {_}, Multiset.singleton_add, Multiset.add_cons]

/-- A call to the surroundings keeps a thread in its turn. -/
theorem enter_of_isAsked_seats (hidle : s.current = none) (hc : isAsked c = true) :
    (s.enter true job (.call c next)).seats = .holds ⟨job, .call c next⟩ ::ₘ s.seats := by
  rw [enter_of_isAsked hc]
  simp [seats, hidle]

/-- A thread gives up its turn. It has returned then, unless it is to shut the timeline down. -/
theorem enter_close_seats (s : Service) (job : Job) (result : Bool) :
    (s.enter true job (job.close result)).client = s.client ∧
      (s.enter true job (job.close result)).current = s.current ∧
      (s.enter true job (job.close result)).seats =
        if job = .operation .shutdown then
          .leaves ⟨⟨job, job.coda result⟩, false⟩ ::ₘ s.seats else s.seats := by
  have hclose := job.proceed_close result s.client
  have hover : outcome? (proceed true (job.close result) s.client).rest = some result := by
    rw [hclose]
    exact job.outcome?_coda result
  rw [enter_of_outcome hover, hclose]
  by_cases hjob : job = .operation .shutdown
  · subst hjob
    refine ⟨rfl, rfl, ?_⟩
    rw [if_pos rfl]
    exact seats_of_leaving_append s _
  · rw [Job.coda_of_ne hjob, if_neg hjob]
    exact ⟨rfl, rfl, rfl⟩

/-- A job comes to where it waits for its turn. -/
theorem launch_seats_of_pending (job : Job) {client : Client Task} {lines : List Log.Line}
    (h : proceed false (job.program setup) s.client =
      { client, lines, holds := false, rest := job.pending setup }) :
    (launch setup s job).client = client ∧ (launch setup s job).current = s.current ∧
      (launch setup s job).seats = .waits ⟨job, job.pending setup⟩ ::ₘ s.seats := by
  have hproceed : proceed false (job.program setup) (s.note (.began job)).client =
      { client, lines, holds := false, rest := job.pending setup } := h
  have hrest : (proceed false (job.program setup) (s.note (.began job)).client).rest =
      .call .acquire fun _ => job.body setup >>= job.close := by
    rw [hproceed]
    rfl
  rw [launch, enter_of_call hrest (by simp), hproceed, if_neg Bool.false_ne_true, report_eq]
  exact ⟨rfl, rfl, seats_of_waiting_append s _⟩

/-- A job is over before it has its turn. -/
theorem launch_seats_of_done (job : Job) {client : Client Task} {lines : List Log.Line}
    {result : Bool} (h : proceed false (job.program setup) s.client =
      { client, lines, holds := false, rest := .done result }) :
    (launch setup s job).client = client ∧ (launch setup s job).current = s.current ∧
      (launch setup s job).seats = s.seats := by
  have hproceed : proceed false (job.program setup) (s.note (.began job)).client =
      { client, lines, holds := false, rest := .done result } := h
  rw [launch, enter_of_done (by rw [hproceed]), hproceed, report_eq]
  exact ⟨rfl, rfl, rfl⟩

end Lwm2mClient.Service
