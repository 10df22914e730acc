import Lwm2mClient.Proofs.Scenario.Requests
import Lwm2mClient.Proofs.Scenario.Served
import Lwm2mClient.Proofs.Service.Monitored
import Mathlib.Data.Multiset.Filter

/-!
The frames of a world as the threads of a service. A frame of an operation stands for a thread in
its place: it waits for its turn, has it, or has given it up. A move of such a frame is a run of
the service that moves this thread and no other.
-/
namespace Lwm2mClient.Scenario

open Net Engine Program
open Service (Becomes Job Seat)

/-- A part of the work that a job does in its turn. -/
def IsWork (p : Program Bool) : Prop := p.Asks (fun c => ¬c.isOfTurn) fun _ => True

/-- The place of the thread that a frame stands for. A frame apart from operations stands for
none, and so does an operation that was only asked for. For the end of a worker another frame
waits, so the thread of a shutdown need not. -/
inductive Sits (setup : Setup) (made : Prop) : Frame → Option Seat → Prop
  | apart {frame : Frame} (happart : frame.engine? = none) : Sits setup made frame none
  | asked (hmade : made) (operation : Operation) :
      Sits setup made (.program 0 (operation.program setup)) none
  | waits (hmade : made) (job : Job) :
      Sits setup made (.program 0 (job.pending setup)) (some (.waits ⟨job, job.pending setup⟩))
  | sends (hmade : made) (job : Job) {work : Option Response → Program Bool}
      (hwork : ∀ a, IsWork (work a)) (peer : SocketAddress) (secure : Bool) (request : Request)
      (timeout : Option Duration) (outcome : Except Fault (Option Response)) :
      Sits setup made (.reply 0 outcome fun a => work a >>= job.close)
        (some (.holds
          ⟨job, .call (.send peer secure request timeout) fun a => work a >>= job.close⟩))
  | awaits (hmade : made) (job : Job) {work : Bool → Program Bool}
      (hwork : ∀ a, IsWork (work a)) (timeout : Duration) :
      Sits setup made (.afterWait 0 fun a => work a >>= job.close)
        (some (.holds ⟨job, .call (.awaitFinish timeout) fun a => work a >>= job.close⟩))
  | answered (hmade : made) (job : Job) {c : Call} {work : c.Answer → Program Bool}
      (hwork : ∀ a, IsWork (work a)) {answer : Service.Answer} {a : c.Answer}
      (ha : answer.to? c = some a) :
      Sits setup made (.program 0 (work a >>= job.close))
        (some (.holds ⟨job, .call c fun a => work a >>= job.close⟩))
  | leaves (hmade : made) (job : Job) (result : Bool) :
      Sits setup made (.program 0 (.done result)) (some (.leaves ⟨⟨job, .done result⟩, false⟩))

theorem coe_cons_add (frame : Frame) (frames : List Frame) (behind : Multiset Frame) :
    ((frame :: frames : List Frame) : Multiset Frame) + behind =
      frame ::ₘ ((frames : Multiset Frame) + behind) := by
  rw [← Multiset.cons_coe, Multiset.cons_add]

/-- Every frame that stands for a thread has a place of its own. There may be other threads: an
operation that was abandoned never goes on. -/
def Seated (setup : Setup) (made : Prop) (frames : Multiset Frame) (seats : Multiset Seat) :
    Prop :=
  ∃ taken, Multiset.Rel (Sits setup made) frames taken ∧ taken.filterMap id ≤ seats

namespace Seated

variable {setup : Setup} {made made' : Prop} {frames frames' : Multiset Frame}
  {seats seats' : Multiset Seat} {frame : Frame} {seat : Seat}

theorem mono (h : Seated setup made frames seats) (hseats : seats ≤ seats') :
    Seated setup made frames seats' := by
  obtain ⟨taken, hsits, htaken⟩ := h
  exact ⟨taken, hsits, htaken.trans hseats⟩

theorem cons_none (h : Seated setup made frames seats) (hsits : Sits setup made frame none) :
    Seated setup made (frame ::ₘ frames) seats := by
  obtain ⟨taken, hall, htaken⟩ := h
  refine ⟨none ::ₘ taken, .cons hsits hall, ?_⟩
  rw [Multiset.filterMap_cons_none _ _ rfl]
  exact htaken

theorem cons (h : Seated setup made frames seats) (hsits : Sits setup made frame (some seat)) :
    Seated setup made (frame ::ₘ frames) (seat ::ₘ seats) := by
  obtain ⟨taken, hall, htaken⟩ := h
  refine ⟨some seat ::ₘ taken, .cons hsits hall, ?_⟩
  rw [Multiset.filterMap_cons_some id _ _ rfl]
  exact Multiset.cons_le_cons seat htaken

theorem of_apart (happart : ∀ frame ∈ frames, frame.engine? = none) :
    Seated setup made frames seats := by
  induction frames using Multiset.induction with
  | empty => exact ⟨0, .zero, Multiset.zero_le _⟩
  | cons frame frames ih =>
    obtain ⟨hframe, hframes⟩ := Multiset.forall_mem_cons.mp happart
    exact (ih hframes).cons_none (.apart hframe)

/-- A frame stands for no thread, or its thread is taken out of its place. -/
theorem uncons (h : Seated setup made (frame ::ₘ frames) seats) :
    (Sits setup made frame none ∧ Seated setup made frames seats) ∨
      ∃ seat others, Sits setup made frame (some seat) ∧ seats = seat ::ₘ others ∧
        Seated setup made frames others := by
  obtain ⟨taken, hall, htaken⟩ := h
  obtain ⟨place, others, hsits, hothers, rfl⟩ := Multiset.rel_cons_left.mp hall
  cases place with
  | none =>
    rw [Multiset.filterMap_cons_none _ _ rfl] at htaken
    exact Or.inl ⟨hsits, others, hothers, htaken⟩
  | some seat =>
    rw [Multiset.filterMap_cons_some id _ _ rfl] at htaken
    obtain ⟨left, rfl⟩ := Multiset.exists_cons_of_mem
      (Multiset.mem_of_le htaken (Multiset.mem_cons_self _ _))
    refine Or.inr ⟨seat, left, hsits, rfl, others, hothers, ?_⟩
    exact (Multiset.cons_le_cons_iff seat).mp htaken

theorem tail (h : Seated setup made (frame ::ₘ frames) seats) :
    Seated setup made frames seats := by
  rcases h.uncons with ⟨-, hrest⟩ | ⟨seat, others, -, rfl, hrest⟩
  · exact hrest
  · exact hrest.mono (Multiset.le_cons_self _ _)

theorem of_add (h : Seated setup made (frames + frames') seats) :
    Seated setup made frames' seats := by
  induction frames using Multiset.induction with
  | empty => exact Multiset.zero_add frames' ▸ h
  | cons frame frames ih =>
    rw [Multiset.cons_add] at h
    exact ih h.tail

theorem imp (h : Seated setup made frames seats) (hmade : made → made') :
    Seated setup made' frames seats := by
  obtain ⟨taken, hall, htaken⟩ := h
  refine ⟨taken, hall.mono fun frame _ place _ hsits => ?_, htaken⟩
  cases hsits with
  | apart happart => exact .apart happart
  | asked h operation => exact .asked (hmade h) operation
  | waits h job => exact .waits (hmade h) job
  | sends h job hwork => exact .sends (hmade h) job hwork ..
  | awaits h job hwork => exact .awaits (hmade h) job hwork _
  | answered h job hwork ha => exact .answered (hmade h) job hwork ha
  | leaves h job result => exact .leaves (hmade h) job result

end Seated

/-! ### A thread goes on -/

namespace World

variable {setup : Setup} {w w' : World} {s s' : Service} {job : Job} {rest : List Frame}
  {behind : Multiset Frame} {moved : World × Next}

/-- What a move of a frame has come to in a world and in a service. Behind it there are frames
that have not moved. -/
structure Fits (setup : Setup) (w : World) (moved : World × Next) (behind : Multiset Frame)
    (s : Service) : Prop where
  stays : w.Stays moved.1
  client : s.client = moved.1.served
  busy : 0 ∈ moved.1.busy ↔ s.current ≠ none
  seated : Seated setup True (moved.2.frames + behind) s.seats

/-- Where a thread is about to go on in its turn. -/
structure Resumes (setup : Setup) (w : World) (behind : Multiset Frame) (s : Service) : Prop where
  made : w.IsMade setup
  client : s.client = w.served
  current : s.current = none
  busy : 0 ∈ w.busy
  seated : Seated setup True behind s.seats

theorem Fits.after (h : Fits setup w' moved behind s) (hstays : w.Stays w') :
    Fits setup w moved behind s :=
  { h with stays := hstays.trans h.stays }

theorem not_mem_release (w : World) (e : Nat) : e ∉ (w.release e).busy := by
  simp [release]

theorem release_stays (w : World) (e : Nat) : w.Stays (w.release e) := ⟨rfl, rfl, rfl⟩

/-- A frame goes on over a call that is answered. -/
theorem move_of_ok {c : Call} {next : c.Answer → Program Bool} {a : c.Answer}
    (hc : ¬c.isOfTurn) (h : w.answer? (some 0) c = some (w', .ok a)) :
    w.move (.program 0 (.call c next)) rest = w'.move (.program 0 (next a)) rest := by
  have hfollow : follow (some 0) (.call c next) w = follow (some 0) (next a) w' := by
    rw [follow_call (by rintro rfl; exact hc trivial) (by rintro rfl; exact hc trivial), h]
  simp only [move, hfollow]

theorem move_of_error {c : Call} {next : c.Answer → Program Bool} {fault : Fault}
    (hc : ¬c.isOfTurn) (h : w.answer? (some 0) c = some (w', .error fault)) :
    w.move (.program 0 (.call c next)) rest = (w'.release 0, .failed fault rest) := by
  have hfollow : follow (some 0) (.call c next) w = (w', .failed fault) := by
    rw [follow_call (by rintro rfl; exact hc trivial) (by rintro rfl; exact hc trivial), h]
  simp only [move, hfollow]

theorem move_of_none {c : Call} {next : c.Answer → Program Bool} (hacquire : c ≠ .acquire)
    (hrelease : c ≠ .release) (h : w.answer? (some 0) c = none) :
    w.move (.program 0 (.call c next)) rest = w.ask 0 rest c next := by
  have hfollow : follow (some 0) (.call c next) w = (w, .asking c next) := by
    rw [follow_call hacquire hrelease, h]
  simp only [move, hfollow]

/-- The timeline is shut down, and a worker is waited for if there is one. -/
theorem ask_shutDownTimeline (w : World) (e : Nat) (rest : List Frame)
    (next : Unit → Program Bool) :
    (w.ask e rest .shutDownTimeline next).1 = { w with scheduler := w.scheduler.shutdown } ∧
      ((w.ask e rest .shutDownTimeline next).2.frames = .program e (next ()) :: rest ∨
        (w.ask e rest .shutDownTimeline next).2.frames =
          .workerEnd :: .program e (next ()) :: rest) := by
  simp only [ask, World.shutDownTimeline]
  by_cases hopen : w.scheduler.isOpenWorker = true
  · rw [if_pos hopen]
    exact ⟨rfl, Or.inr rfl⟩
  · rw [if_neg hopen]
    exact ⟨rfl, Or.inl rfl⟩

/-- The work of a job is done: the job gives up its turn. -/
theorem resumes_close (h : Resumes setup w (rest + behind) s) (job : Job) (result : Bool) :
    ∃ s', Becomes setup (s.enter true job (job.close result)) s' ∧
      Fits setup w (w.move (.program 0 (job.close result)) rest) behind s' := by
  have hmove : w.move (.program 0 (job.close result)) rest =
      (w.release 0).move (.program 0 (job.coda result)) rest := rfl
  obtain ⟨hclient, hcurrent, hseats⟩ := s.enter_close_seats job result
  have hidle : (s.enter true job (job.close result)).current = none := hcurrent.trans h.current
  have hfree := not_mem_release w 0
  rw [hmove]
  by_cases hjob : job = .operation .shutdown
  · subst hjob
    rw [if_pos rfl] at hseats
    obtain ⟨s', hbecomes, hcurrent', hclient', hseats'⟩ :=
      Service.windUp_of_seats setup hseats
    have hasking : (w.release 0).move
        (.program 0 ((Job.operation .shutdown).coda result)) rest =
        (w.release 0).ask 0 rest .shutDownTimeline fun _ => .done result :=
      move_of_none nofun nofun rfl
    obtain ⟨hworld, hframes⟩ :=
      ask_shutDownTimeline (w.release 0) 0 rest fun _ => .done result
    have hleaves : Seated setup True (.program 0 (.done result) ::ₘ (rest + behind)) s'.seats :=
      hseats' ▸ h.seated.cons (.leaves trivial _ result)
    rw [hasking]
    refine ⟨s', hbecomes, ?_, ?_, ?_, ?_⟩
    · rw [hworld]
      exact ⟨rfl, rfl, rfl⟩
    · rw [hclient', hclient, h.client, hworld]
      exact congrArg (fun scheduler => { w.served with scheduler })
        (w.scheduler.shutdown_map Task.served)
    · rw [hworld, hcurrent', hidle]
      exact iff_of_false hfree (absurd rfl)
    · rcases hframes with hframes | hframes
      · rw [hframes, coe_cons_add]
        exact hleaves
      · rw [hframes, coe_cons_add, coe_cons_add]
        exact hleaves.cons_none (.apart rfl)
  · rw [if_neg hjob] at hseats
    rw [Job.coda_of_ne hjob]
    refine ⟨_, .refl _, release_stays w 0, hclient.trans h.client, ?_, ?_⟩
    · exact iff_of_false hfree (absurd hidle)
    · rw [hseats]
      exact h.seated

theorem ask_send (w : World) (e : Nat) (rest : List Frame) (peer : SocketAddress) (secure : Bool)
    (request : Request) (timeout : Option Duration) (next : Option Response → Program Bool) :
    (w.ask e rest (.send peer secure request timeout) next).1.bare = w.bare ∧ ∃ outcome,
      (w.ask e rest (.send peer secure request timeout) next).2.frames =
          .reply e outcome next :: rest ∨
        ∃ number steps, (w.ask e rest (.send peer secure request timeout) next).2.frames =
          .underway number steps :: .reply e outcome next :: rest := by
  simp only [ask]
  split
  · exact ⟨rfl, _, Or.inr ⟨_, _, rfl⟩⟩
  · exact ⟨rfl, _, Or.inl rfl⟩

theorem ask_awaitFinish (w : World) (e : Nat) (rest : List Frame) (timeout : Duration)
    (next : Bool → Program Bool) :
    (∃ gate, (w.ask e rest (.awaitFinish timeout) next).1 = { w with gate }) ∧
      ((w.ask e rest (.awaitFinish timeout) next).2.frames = .program e (next false) :: rest ∨
        ∃ session deadline, (w.ask e rest (.awaitFinish timeout) next).2.frames =
          .await session deadline :: .afterWait e next :: rest) := by
  simp only [ask, startWait]
  rcases w.gate.claim with ⟨_ | session, gate⟩
  · exact ⟨⟨gate, rfl⟩, Or.inl rfl⟩
  · exact ⟨⟨gate, rfl⟩, Or.inr ⟨_, _, rfl⟩⟩

variable {c : Call} {work : c.Answer → Program Bool}

/-- Where a job has asked its surroundings for something. -/
structure Asked (job : Job) (c : Call) (next : c.Answer → Program Bool) (s s' : Service) :
    Prop where
  client : s'.client = s.client
  current : s'.current ≠ none
  seats : s'.seats = .holds ⟨job, .call c next⟩ ::ₘ s.seats

theorem asked_of_isAsked (job : Job) (next : c.Answer → Program Bool) (hidle : s.current = none)
    (hasked : Service.isAsked c = true) :
    Asked job c next s (s.enter true job (.call c next)) := by
  refine ⟨?_, ?_, Service.enter_of_isAsked_seats hidle hasked⟩
  · rw [Service.enter_of_isAsked hasked]
  · rw [Service.enter_of_isAsked hasked]
    nofun

/-- The store answers, or it fails and the operation is abandoned. -/
theorem resumes_store (h : Resumes setup w (rest + behind) s) (hc : ¬c.isOfTurn)
    (hasked : Asked job c (fun a => work a >>= job.close) s s')
    (hfails : Service.canFail c = true)
    (hto : ∀ a : c.Answer, ∃ answer : Service.Answer, answer.to? c = some a)
    {reply : Except Fault c.Answer} (hanswer : w.answer? (some 0) c = some (w', reply))
    (hbare : w'.bare = w.bare)
    (hwork : ∀ a s₁, Resumes setup w' (rest + behind) s₁ →
      ∃ s₂, Becomes setup (s₁.enter true job (work a >>= job.close)) s₂ ∧
        Fits setup w' (w'.move (.program 0 (work a >>= job.close)) rest) behind s₂) :
    ∃ s₂, Becomes setup s' s₂ ∧
      Fits setup w (w.move (.program 0 (.call c fun a => work a >>= job.close)) rest)
        behind s₂ := by
  have hserved := served_of_bare hbare
  cases reply with
  | ok a =>
    obtain ⟨answer, ha⟩ := hto a
    obtain ⟨s₁, hleft, hanswered⟩ := Service.answer_of_seats setup ha hasked.seats
    have hresumes : Resumes setup w' (rest + behind) s₁ := by
      refine ⟨(Stays.of_bare hbare).isMade h.made, ?_, hleft.current, ?_, ?_⟩
      · rw [hleft.client, hasked.client, h.client, hserved]
      · exact busy_of_bare hbare ▸ h.busy
      · exact hleft.seats ▸ h.seated
    obtain ⟨s₂, hbecomes, hfits⟩ := hwork a s₁ hresumes
    rw [move_of_ok hc hanswer]
    exact ⟨s₂, hanswered.trans hbecomes, hfits.after (.of_bare hbare)⟩
  | error fault =>
    obtain ⟨s₁, hleft, hfailed⟩ := Service.fail_of_seats setup hfails hasked.seats
    rw [move_of_error hc hanswer]
    refine ⟨s₁, hfailed, (Stays.of_bare hbare).trans (release_stays w' 0), ?_, ?_, ?_⟩
    · rw [hleft.client, hasked.client, h.client]
      exact hserved.symm
    · exact iff_of_false (not_mem_release w' 0) (absurd hleft.current)
    · rw [hleft.seats]
      exact h.seated

/-- A request is sent, and the operation waits for what comes of it. -/
theorem resumes_send (h : Resumes setup w (rest + behind) s) {peer : SocketAddress}
    {secure : Bool} {request : Request} {timeout : Option Duration}
    {work : Option Response → Program Bool} (hwork : ∀ a, IsWork (work a))
    (hasked : Asked job (.send peer secure request timeout) (fun a => work a >>= job.close)
      s s') :
    Fits setup w (w.move (.program 0
      (.call (.send peer secure request timeout) fun a => work a >>= job.close)) rest)
      behind s' := by
  have hasking : w.move (.program 0
      (.call (.send peer secure request timeout) fun a => work a >>= job.close)) rest =
        w.ask 0 rest (.send peer secure request timeout) fun a => work a >>= job.close :=
    move_of_none nofun nofun rfl
  obtain ⟨hbare, outcome, hframes⟩ :=
    ask_send w 0 rest peer secure request timeout fun a => work a >>= job.close
  have hsends := h.seated.cons (.sends trivial job hwork peer secure request timeout outcome)
  rw [hasking]
  refine ⟨.of_bare hbare, ?_, ?_, ?_⟩
  · rw [hasked.client, h.client, served_of_bare hbare]
  · rw [busy_of_bare hbare]
    exact iff_of_true h.busy hasked.current
  · rw [hasked.seats]
    rcases hframes with hframes | ⟨number, steps, hframes⟩
    · rw [hframes, coe_cons_add]
      exact hsends
    · rw [hframes, coe_cons_add, coe_cons_add]
      exact hsends.cons_none (.apart rfl)

/-- The wait for the end of a session begins, or there is nothing to wait for. -/
theorem resumes_awaitFinish (h : Resumes setup w (rest + behind) s) {timeout : Duration}
    {work : Bool → Program Bool} (hwork : ∀ a, IsWork (work a))
    (hasked : Asked job (.awaitFinish timeout) (fun a => work a >>= job.close) s s') :
    ∃ s₁, Becomes setup s' s₁ ∧
      Fits setup w (w.move (.program 0
        (.call (.awaitFinish timeout) fun a => work a >>= job.close)) rest) behind s₁ := by
  have hasking : w.move (.program 0
      (.call (.awaitFinish timeout) fun a => work a >>= job.close)) rest =
        w.ask 0 rest (.awaitFinish timeout) fun a => work a >>= job.close :=
    move_of_none nofun nofun rfl
  obtain ⟨⟨gate, hworld⟩, hframes⟩ :=
    ask_awaitFinish w 0 rest timeout fun a => work a >>= job.close
  have hflag : (Service.Answer.flag false).to? (.awaitFinish timeout) = some false := rfl
  rw [hasking]
  refine ⟨{ s' with client := { s'.client with gate } }, .of_step (.gate gate) rfl,
    ?_, ?_, ?_, ?_⟩
  · rw [hworld]
    exact ⟨rfl, rfl, rfl⟩
  · rw [hworld, hasked.client, h.client]
    rfl
  · rw [hworld]
    exact iff_of_true h.busy hasked.current
  · change Seated setup True _ s'.seats
    rw [hasked.seats]
    rcases hframes with hframes | ⟨session, deadline, hframes⟩
    · rw [hframes, coe_cons_add]
      exact h.seated.cons (.answered trivial job hwork hflag)
    · rw [hframes, coe_cons_add, coe_cons_add]
      exact (h.seated.cons (.awaits trivial job hwork timeout)).cons_none (.apart rfl)

/-- A job goes on with its work in a world as in service. -/
theorem resumes_work {p : Program Bool} (hp : IsWork p) (h : Resumes setup w (rest + behind) s) :
    ∃ s', Becomes setup (s.enter true job (p >>= job.close)) s' ∧
      Fits setup w (w.move (.program 0 (p >>= job.close)) rest) behind s' := by
  induction p generalizing w s with
  | done result => exact resumes_close h job result
  | call c next ih =>
    obtain ⟨hc, hnext⟩ := hp
    rw [call_bind]
    cases hreply : s.client.answer? .work c with
    | some reply =>
      obtain ⟨w', hanswer, hserved, hstays, hbusy⟩ :=
        answer?_of_served h.made (h.client ▸ hreply) (by rintro rfl; exact hc trivial)
      rw [Service.enter_of_reply hreply, move_of_ok hc hanswer]
      have hresumes : Resumes setup w' (rest + behind)
          ({ s with client := reply.client }.report reply.lines) := by
        rw [Service.report_eq]
        exact ⟨hstays.isMade h.made, hserved.symm, h.current, hbusy ▸ h.busy, h.seated⟩
      obtain ⟨s', hbecomes, hfits⟩ := ih reply.answer (hnext _) hresumes
      exact ⟨s', hbecomes, hfits.after hstays⟩
    | none =>
      have hasked := asked_of_isAsked job (fun a => next a >>= job.close) h.current
        (Service.isAsked_of_none (by rintro rfl; exact hc trivial)
          (by rintro rfl; exact hc trivial) hreply)
      have hwork : ∀ w' a s₁, Resumes setup w' (rest + behind) s₁ →
          ∃ s₂, Becomes setup (s₁.enter true job (next a >>= job.close)) s₂ ∧
            Fits setup w' (w'.move (.program 0 (next a >>= job.close)) rest) behind s₂ :=
        fun _ a _ => ih a (hnext a)
      cases c with
      | objectIds =>
        exact resumes_store h hc hasked rfl (fun a => ⟨.ids a, rfl⟩) rfl rfl (hwork _)
      | readObject object =>
        exact resumes_store h hc hasked rfl (fun a => ⟨.object a, rfl⟩) rfl
          (readObject_bare w object) (hwork _)
      | deleteInstance sender object i =>
        exact resumes_store h hc hasked rfl (fun a => ⟨.code a, rfl⟩) rfl
          (deleteInstance_bare w sender object i) (hwork _)
      | send peer secure request timeout => exact ⟨_, .refl _, resumes_send h hnext hasked⟩
      | awaitFinish timeout => exact resumes_awaitFinish h hnext hasked
      | acquire | release | shutDownTimeline => exact absurd trivial hc
      | _ => cases hreply

/-! ### A thread moves -/

variable {others : Multiset Seat}

/-- Whoever waits for its turn has it, unless the engine is in use. -/
theorem move_pending (hmade : w.IsMade setup) (hclient : s.client = w.served)
    (hbusy : 0 ∈ w.busy ↔ s.current ≠ none)
    (hseats : s.seats = .waits ⟨job, job.pending setup⟩ ::ₘ others)
    (hothers : Seated setup True (rest + behind) others) :
    ∃ s', Becomes setup s s' ∧
      Fits setup w (w.move (.program 0 (job.pending setup)) rest) behind s' := by
  by_cases hused : 0 ∈ w.busy
  · have hmove : w.move (.program 0 (job.pending setup)) rest =
        (w, .goOn (.program 0 (job.pending setup) :: rest)) := by
      simp only [move, Job.pending, follow, if_pos hused, ask]
    rw [hmove]
    refine ⟨s, .refl s, .refl w, hclient, hbusy, ?_⟩
    rw [hseats]
    change Seated setup True (((_ :: rest : List Frame) : Multiset Frame) + behind) _
    rw [coe_cons_add]
    exact hothers.cons (.waits trivial job)
  · have hidle : s.current = none := by
      by_contra hcurrent
      exact hused (hbusy.mpr hcurrent)
    let taken : World := { w with busy := 0 :: w.busy }
    have hmove : w.move (.program 0 (job.pending setup)) rest =
        taken.move (.program 0 (job.body setup >>= job.close)) rest := by
      simp only [move, Job.pending, follow, if_neg hused, taken]
    obtain ⟨s₁, hleft, hturn⟩ := Service.turn_of_seats setup hidle hseats
    have hresumes : Resumes setup taken (rest + behind) s₁ :=
      ⟨hmade, hleft.client.trans hclient, hleft.current, List.mem_cons_self,
        hleft.seats ▸ hothers⟩
    obtain ⟨s', hbecomes, hfits⟩ := resumes_work (job.body_holds setup) hresumes
    rw [hmove]
    exact ⟨s', hturn.trans hbecomes, hfits.after ⟨rfl, rfl, rfl⟩⟩

/-- Where a frame is about to move: the world and the service have come to the same. -/
structure Stands (setup : Setup) (w : World) (frames : Multiset Frame) (s : Service) : Prop where
  made : w.IsMade setup
  client : s.client = w.served
  busy : 0 ∈ w.busy ↔ s.current ≠ none
  seated : Seated setup True frames s.seats

/-- An operation that was asked for comes to where it waits for its turn. -/
theorem move_launched (h : Stands setup w (rest + behind) s) (operation : Operation)
    (hstays : w.Stays w') (hkept : w'.busy = w.busy) (lines : List Log.Line)
    (hproceed : Service.proceed false (operation.program setup) s.client =
      { client := w'.served, lines, holds := false
        rest := (Job.operation operation).pending setup })
    (hmove : w.move (.program 0 (operation.program setup)) rest =
      w'.move (.program 0 ((Job.operation operation).pending setup)) rest) :
    ∃ s', Becomes setup s s' ∧
      Fits setup w (w.move (.program 0 (operation.program setup)) rest) behind s' := by
  obtain ⟨hclient, hcurrent, hseats⟩ :=
    Service.launch_seats_of_pending (.operation operation) hproceed
  have hlaunch : Becomes setup s (Service.launch setup s (.operation operation)) :=
    .of_step (.operate operation) rfl
  have hbusy : 0 ∈ w'.busy ↔ (Service.launch setup s (.operation operation)).current ≠ none := by
    rw [hkept, hcurrent]
    exact h.busy
  rw [hmove]
  obtain ⟨s', hbecomes, hfits⟩ :=
    move_pending (hstays.isMade h.made) hclient hbusy hseats h.seated
  exact ⟨s', hlaunch.trans hbecomes, hfits.after hstays⟩

/-- A shutdown closes the session before it waits for its turn. -/
theorem move_shutdown (h : Stands setup w (rest + behind) s) :
    ∃ s', Becomes setup s s' ∧
      Fits setup w (w.move (.program 0 (Engine.shutdown setup)) rest) behind s' := by
  have hclose : w.served.answer? .work .closeSession =
      some ⟨(), { w.served with gate := w.gate.close.gate }, w.gate.close.lines⟩ := rfl
  obtain ⟨w', hanswer, hserved, hstays, hkept⟩ := answer?_of_served h.made hclose nofun
  have hproceed : Service.proceed false (Engine.shutdown setup) s.client =
      { client := w'.served, lines := w.gate.close.lines, holds := false
        rest := (Job.operation .shutdown).pending setup } := by
    rw [Job.shutdown_eq, h.client, Service.proceed_of_reply hclose, hserved]
    dsimp only
    rw [Job.proceed_pending, List.append_nil]
  refine move_launched h .shutdown hstays hkept _ hproceed ?_
  change w.move (.program 0 (Engine.shutdown setup)) rest = _
  rw [Job.shutdown_eq]
  exact move_of_ok id hanswer

/-- A bootstrap is refused while a session is open. -/
theorem move_bootstrap (h : Stands setup w (rest + behind) s) :
    ∃ s', Becomes setup s s' ∧
      Fits setup w (w.move (.program 0 (Engine.bootstrap setup)) rest) behind s' := by
  have hlooks : w.served.answer? .work .sessionActive = some ⟨w.gate.isActive, w.served, []⟩ :=
    rfl
  obtain ⟨w', hanswer, hserved, hstays, hkept⟩ := answer?_of_served h.made hlooks nofun
  have hmove : w.move (.program 0 (Engine.bootstrap setup)) rest =
      w'.move (.program 0 (if w.gate.isActive = true then
        (Program.call (.log .bootstrapInProgress) fun _ => .done false)
        else (Job.operation .bootstrap).pending setup)) rest := move_of_ok id hanswer
  have hproceed : Service.proceed false (Engine.bootstrap setup) s.client =
      Service.proceed false (if w.gate.isActive = true then
        (Program.call (.log .bootstrapInProgress) fun _ => .done false)
        else (Job.operation .bootstrap).pending setup) s.client := by
    rw [h.client]
    rfl
  by_cases hactive : w.gate.isActive = true
  · rw [if_pos hactive] at hmove hproceed
    have hlogs : w'.served.answer? .work (.log .bootstrapInProgress) =
        some ⟨(), w'.served, [.bootstrapInProgress]⟩ := rfl
    obtain ⟨w'', hanswer', hserved', hstays', hkept'⟩ :=
      answer?_of_served (hstays.isMade h.made) hlogs nofun
    obtain ⟨hclient, hcurrent, hseats⟩ :=
      Service.launch_seats_of_done (.operation .bootstrap) hproceed
    rw [hmove, move_of_ok id hanswer']
    refine ⟨_, .of_step (.operate .bootstrap) rfl, hstays.trans hstays', ?_, ?_, ?_⟩
    · rw [hclient, h.client]
      exact hserved.symm.trans hserved'.symm
    · change 0 ∈ w''.busy ↔ _
      rw [hkept', hkept, hcurrent]
      exact h.busy
    · rw [hseats]
      exact h.seated
  · rw [if_neg hactive] at hmove hproceed
    refine move_launched h .bootstrap hstays hkept [] ?_ hmove
    change Service.proceed false (Engine.bootstrap setup) s.client = _
    rw [hproceed, h.client, hserved]
    rfl

/-- An operation that was asked for begins. -/
theorem move_asked (h : Stands setup w (rest + behind) s) (operation : Operation) :
    ∃ s', Becomes setup s s' ∧
      Fits setup w (w.move (.program 0 (operation.program setup)) rest) behind s' := by
  cases operation with
  | register | update | deregister | stop =>
    exact move_launched h _ (.refl w) rfl [] (by rw [h.client]; rfl) rfl
  | shutdown => exact move_shutdown h
  | bootstrap => exact move_bootstrap h

/-- A frame of an operation goes on. -/
theorem move_program {p : Program Bool}
    (h : Stands setup w (.program 0 p ::ₘ (rest + behind)) s) :
    ∃ s', Becomes setup s s' ∧ Fits setup w (w.move (.program 0 p) rest) behind s' := by
  rcases h.seated.uncons with ⟨hsits, hrest⟩ | ⟨seat, others, hsits, hseats, hrest⟩
  · cases hsits with
    | apart happart => cases happart
    | asked _ operation => exact move_asked { h with seated := hrest } operation
  · cases hsits with
    | waits _ job => exact move_pending h.made h.client h.busy hseats hrest
    | answered _ job hwork ha =>
      obtain ⟨hcurrent, -⟩ := Service.seats_of_holds hseats
      obtain ⟨s₁, hleft, hanswered⟩ := Service.answer_of_seats setup ha hseats
      have hbusy : 0 ∈ w.busy := h.busy.mpr (by rw [hcurrent]; nofun)
      have hresumes : Resumes setup w (rest + behind) s₁ :=
        ⟨h.made, hleft.client.trans h.client, hleft.current, hbusy, hleft.seats ▸ hrest⟩
      obtain ⟨s', hbecomes, hfits⟩ := resumes_work (hwork _) hresumes
      exact ⟨s', hanswered.trans hbecomes, hfits⟩
    | leaves _ job result =>
      obtain ⟨s', hbecomes, hcurrent, hclient, hseats'⟩ := Service.goBack_of_seats setup hseats
      refine ⟨s', hbecomes, .refl w, hclient.trans h.client, ?_, hseats' ▸ hrest⟩
      change 0 ∈ w.busy ↔ _
      rw [hcurrent]
      exact h.busy

end World
end Lwm2mClient.Scenario
