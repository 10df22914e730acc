import Lwm2mClient.Proofs.Engine.Sendings
import Lwm2mClient.Proofs.Service.Bodies
import Lwm2mClient.Proofs.Service.Escalation

/-!
When a job does send its request. As long as the store shows the same to every reading, a job that
has its turn comes to the request that the shown servers call for, whatever happens aside and
whatever it is answered. So a course without a request tells that the store did not name a server
that could be asked, or that a session was in progress.
-/
namespace Lwm2mClient

open Net Engine Program

namespace Service

/-- An event is no reading of the store that gave something else than a view shows. -/
def Event.Shows (v : View) : Event → Prop
  | answered c a _ => v.Answers c a
  | _ => True

/-- A call as `goal` demands was answered by the surroundings, or was a report. -/
def Event.Meets (goal : Call → Prop) : Event → Prop
  | answered c _ _ => isAsked c = true ∧ goal c
  | reported line => goal (.log line)
  | _ => False

/-- What `goal` demands is asked of the surroundings or reported. -/
def IsOpenly (goal : Call → Prop) : Prop :=
  ∀ c, goal c → isAsked c = true ∨ ∃ line, c = .log line

theorem isAsked_of_to? {answer : Answer} {c : Call} {a : c.Answer} (h : answer.to? c = some a) :
    isAsked c = true := by
  cases c <;> first | rfl | cases h

variable {setup : Setup} {goal : Call → Prop} {v : View} {job : Job} {s s' : Service}
  {own : List Event} {server : ManagementServer} {servers : Servers} {first : ServerInfo}
  {address : SocketAddress}

/-- A program that leaves turns alone keeps the turn that it has. -/
theorem proceed_holds {α : Type} {p : Program α} {client : Client Task}
    (h : p.Asks (fun c => ¬c.isOfTurn) fun _ => True) : (proceed true p client).holds = true := by
  induction p generalizing client with
  | done value => rfl
  | call c next ih =>
    have hrelease : c ≠ .release := by
      rintro rfl
      exact h.1 trivial
    cases hreply : client.answer? .work c with
    | none => rw [proceed_of_none hrelease hreply]
    | some reply =>
      rw [proceed_of_reply hreply]
      exact ih reply.answer (h.2 reply.answer)

/-- A program is on its way to a call as `goal` demands, the store being the one that is shown. -/
structure Heads {α : Type} (goal : Call → Prop) (v : View) (p : Program α) : Prop where
  reaches : p.Reaches (showing v) goal (fun _ _ => False) ()
  holds : p.Asks (fun c => ¬c.isOfTurn) fun _ => True

/-- It has made such a call, or is on its way still after an answer that shows the store. -/
theorem Heads.next {α : Type} {c : Call} {next : c.Answer → Program α} {a : c.Answer}
    (h : Heads goal v (.call c next)) (ha : v.Answers c a) : goal c ∨ Heads goal v (next a) :=
  h.reaches.imp id fun hnext => ⟨hnext a () ha, h.holds.2 a⟩

/-- A program that is on its way comes to the call by itself, or to where it waits on its way. -/
theorem Heads.proceed {α : Type} {p : Program α} (hgoal : IsOpenly goal) (h : Heads goal v p)
    (client : Client Task) :
    (∃ line ∈ (Service.proceed true p client).lines, goal (.log line)) ∨
      ∃ c next, (Service.proceed true p client).rest = .call c next ∧
        Heads goal v (.call c next) := by
  induction p generalizing client with
  | done value =>
    exact absurd h.reaches id
  | call c next ih =>
    have hrelease : c ≠ .release := by
      rintro rfl
      exact h.holds.1 trivial
    cases hreply : client.answer? .work c with
    | none =>
      rw [proceed_of_none hrelease hreply]
      exact Or.inr ⟨c, next, rfl, h⟩
    | some reply =>
      have hasked : ¬isAsked c = true := by
        intro hasked
        cases (answer?_of_isAsked hasked client).symm.trans hreply
      have hshows : v.Answers c reply.answer := by
        cases c <;> first | exact trivial | exact absurd rfl hasked
      rw [proceed_of_reply hreply]
      rcases h.next hshows with hmet | hnext
      · obtain ⟨line, rfl⟩ := (hgoal c hmet).resolve_left hasked
        cases hreply
        exact Or.inl ⟨line, List.mem_cons_self, hmet⟩
      · rcases ih reply.answer hnext reply.client with ⟨line, hline, hmet⟩ | hrest
        · exact Or.inl ⟨line, List.mem_append_right _ hline, hmet⟩
        · exact Or.inr hrest

/-- The job that has its turn is on its way to a call as `goal` demands. -/
def IsHeading (goal : Call → Prop) (v : View) (job : Job) (s : Service) : Prop :=
  ∃ c next, s.current = some ⟨job, .call c fun a => next a >>= job.close⟩ ∧
    Heads goal v (.call c next)

/-- A job that goes on comes to such a call, or is on its way to it. -/
theorem Heads.enter {p : Program Bool} {events : List Event} (hgoal : IsOpenly goal)
    (h : Heads goal v p)
    (hevents : (s.enter true job (p >>= job.close)).history = events ++ s.history) :
    (∃ e ∈ events, e.Meets goal) ∨
      IsHeading goal v job (s.enter true job (p >>= job.close)) := by
  have hholds : (Service.proceed true p s.client).holds = true := proceed_holds h.holds
  let reported : List Event :=
    (Service.proceed true p s.client).lines.reverse.map .reported
  rcases h.proceed hgoal s.client with ⟨line, hline, hmet⟩ | ⟨c, next, hrest, hheads⟩
  · have hreported : Event.reported line ∈ reported :=
      List.mem_map_of_mem (List.mem_reverse.mpr hline)
    suffices hmem : Event.reported line ∈ events from Or.inl ⟨_, hmem, hmet⟩
    cases hrest : (Service.proceed true p s.client).rest with
    | done result =>
      have hhistory : (s.enter true job (p >>= job.close)).history =
          (.ended job result :: reported) ++ s.history := by
        rw [enter_of_finished hholds hrest, depart_eq, report_eq]
        change Event.ended job result :: (Service.report _ _).history = _
        rw [report_history]
        rfl
      rw [List.append_cancel_right (hevents.symm.trans hhistory)]
      exact List.mem_cons_of_mem _ hreported
    | call c next =>
      have hhistory : (s.enter true job (p >>= job.close)).history = reported ++ s.history := by
        rw [enter_of_asking hholds hrest]
        exact report_history _ _
      rwa [List.append_cancel_right (hevents.symm.trans hhistory)]
  · rw [enter_of_asking hholds hrest]
    exact Or.inr ⟨c, next, rfl, hheads⟩

/-- A job that is on its way comes to such a call before its end. -/
theorem Course.reaches (hgoal : IsOpenly goal) (h : Course setup s own s')
    (hheads : IsHeading goal v job s) (hshows : ∀ e ∈ own, e.Shows v) :
    ∃ e ∈ own, e.Meets goal := by
  induction h with
  | done hidle =>
    obtain ⟨c, next, hcurrent, -⟩ := hheads
    cases hidle.symm.trans hcurrent
  | aside hbusy haside hstep hrest ih =>
    obtain ⟨c, next, hcurrent, hheads⟩ := hheads
    exact ih ⟨c, next, (step_aside hstep haside).current.trans hcurrent, hheads⟩ hshows
  | @answered s s₁ s' answer events own hstep hevents hrest ih =>
    obtain ⟨c, next, hcurrent, hheads⟩ := hheads
    obtain ⟨job', c', next', a, hcurrent', hto, rfl⟩ := step_answer hstep
    cases hcurrent.symm.trans hcurrent'
    let heard : Event := .answered c a s.client.scheduler.clock
    let answered : Service := { s with current := none }.note heard
    -- the answer is the first of the events, and what is reported on the way follows it
    obtain ⟨since, hsince, -⟩ := enter_extends answered true job (next a >>= job.close)
    have heq : events = since ++ [heard] := by
      refine List.append_cancel_right (hevents.symm.trans (hsince.trans ?_))
      rw [List.append_assoc]
      rfl
    have hheard : heard ∈ own ++ events := by simp [heq]
    rcases hheads.next (hshows heard hheard) with hmet | hnext
    · exact ⟨heard, hheard, isAsked_of_to? hto, hmet⟩
    · rcases hnext.enter (s := answered) hgoal hsince with ⟨e, he, hmet⟩ | hheading
      · exact ⟨e, by simp [heq, he], hmet⟩
      · obtain ⟨e, he, hmet⟩ := ih hheading fun e he => hshows e (List.mem_append_left _ he)
        exact ⟨e, List.mem_append_left _ he, hmet⟩

/-- What the work of a job comes to while the store is as shown, every performance of it does. -/
theorem Performs.reaches (hgoal : IsOpenly goal) (hinv : Inv setup s)
    (h : Performs setup s job own s')
    (hreaches : (job.body setup).Reaches (showing v) goal (fun _ _ => False) ())
    (hshows : ∀ e ∈ own, e.Shows v) : ∃ e ∈ own, e.Meets goal := by
  cases h with
  | @mk index thread s₁ _ events own hindex hjob hturn hevents hcourse =>
    obtain ⟨job', hcurrent, hindex', rfl⟩ := step_turn hturn hinv.waiting
    cases hindex.symm.trans hindex'
    cases hjob
    have hheads : Heads goal v (job'.body setup) :=
      ⟨hreaches, job'.body_holds setup⟩
    rcases hheads.enter hgoal hevents with ⟨e, he, hmet⟩ | hheading
    · exact ⟨e, List.mem_append_right own he, hmet⟩
    · obtain ⟨e, he, hmet⟩ := hcourse.reaches hgoal hheading fun e he =>
        hshows e (List.mem_append_left _ he)
      exact ⟨e, List.mem_append_left _ he, hmet⟩

/-! ### The requests of a course -/

/-- A request of one kind. -/
def SendsKind (kind : Request.Kind) (c : Call) : Prop :=
  ∃ peer secure request timeout, c = .send peer secure request timeout ∧ request.kind = kind

theorem kind_mem_word {kind : Request.Kind} (hgoal : ∀ c, goal c → SendsKind kind c)
    (h : ∃ e ∈ own, e.Meets goal) : kind ∈ word (marksOf own) := by
  obtain ⟨e, he, hmet⟩ := h
  cases e with
  | answered c answer now =>
    obtain ⟨peer, secure, request, timeout, rfl, rfl⟩ := hgoal c hmet.2
    refine List.mem_map.mpr ⟨(request, answer), List.mem_filterMap.mpr ?_, rfl⟩
    refine ⟨.sent request answer, List.mem_reverse.mpr (List.mem_filterMap.mpr ?_), rfl⟩
    exact ⟨_, he, rfl⟩
  | reported line =>
    obtain ⟨peer, secure, request, timeout, hcall, -⟩ := hgoal _ hmet
    cases hcall
  | _ => exact absurd hmet id

theorem reported_mem {line : Log.Line} (h : ∃ e ∈ own, e.Meets fun c => c = .log line) :
    .reported line ∈ own := by
  obtain ⟨e, he, hmet⟩ := h
  cases e with
  | answered c answer now =>
    obtain ⟨hasked, rfl⟩ := hmet
    cases hasked
  | reported line' =>
    cases hmet
    exact he
  | _ => exact absurd hmet id

/-- What meets one of two demands meets the first or the second. -/
theorem meets_or {goal' : Call → Prop} (h : ∃ e ∈ own, e.Meets fun c => goal c ∨ goal' c) :
    (∃ e ∈ own, e.Meets goal) ∨ ∃ e ∈ own, e.Meets goal' := by
  obtain ⟨e, he, hmet⟩ := h
  cases e with
  | answered c answer now =>
    exact hmet.2.imp (fun h => ⟨_, he, hmet.1, h⟩) fun h => ⟨_, he, hmet.1, h⟩
  | reported line => exact hmet.imp (fun h => ⟨_, he, h⟩) fun h => ⟨_, he, h⟩
  | _ => exact absurd hmet id

theorem sendsKind_of_asksRegister {c : Call} (h : AsksRegister setup v server c) :
    SendsKind .register c := by
  obtain ⟨address, lifetime, binding, -, -, rfl⟩ := h
  exact ⟨_, _, _, _, rfl, rfl⟩

theorem sendsKind_of_asksUpdate {c : Call} (h : AsksUpdate setup server c) :
    SendsKind .update c := by
  obtain ⟨address, id, -, rfl⟩ := h
  exact ⟨_, _, _, _, rfl, rfl⟩

theorem sendsKind_of_asksBootstrap {c : Call} (h : AsksBootstrap setup first c) :
    SendsKind .bootstrap c := by
  obtain ⟨address, -, rfl⟩ := h
  exact ⟨_, _, _, _, rfl, rfl⟩

theorem isAsked_of_sendsKind {kind : Request.Kind} {c : Call} (h : SendsKind kind c) :
    isAsked c = true := by
  obtain ⟨peer, secure, request, timeout, rfl, -⟩ := h
  rfl

theorem isOpenly_asksRegister : IsOpenly (AsksRegister setup v server) :=
  fun _ h => Or.inl (isAsked_of_sendsKind (sendsKind_of_asksRegister h))

theorem isOpenly_triesBootstrap : IsOpenly (TriesBootstrap setup first) := by
  rintro c (rfl | h)
  · exact Or.inr ⟨_, rfl⟩
  · exact Or.inl (isAsked_of_sendsKind (sendsKind_of_asksBootstrap h))

theorem isOpenly_registersOrBootstraps : IsOpenly (RegistersOrBootstraps setup first) := by
  rintro c (⟨id, rfl⟩ | h)
  · exact Or.inr ⟨_, rfl⟩
  · exact isOpenly_triesBootstrap c h

/-- The course of a bootstrap that was made or refused. -/
theorem bootstrap_mem_word (h : ∃ e ∈ own, e.Meets (TriesBootstrap setup first)) :
    .reported .bootstrapInProgress ∈ own ∨ .bootstrap ∈ word (marksOf own) :=
  (meets_or h).imp reported_mem (kind_mem_word fun _ => sendsKind_of_asksBootstrap)

namespace Performs

variable (hinv : Inv setup s) (hshows : ∀ e ∈ own, e.Shows v)

include hinv hshows

/-- Where the store names a server that can be asked, a registration is asked for. -/
theorem sends_register (h : Performs setup s job own s')
    (hjob : job = .operation .register ∨ ∃ due number, job = .task due number .start)
    (hnamed : v.Names setup.hosts server) (husable : server.isUsable = true) :
    .register ∈ word (marksOf own) := by
  have hreaches : (job.body setup).Reaches (showing v) (AsksRegister setup v server)
      (fun _ _ => False) () := by
    obtain rfl | ⟨due, number, rfl⟩ := hjob
    · exact registerNow_reaches hnamed husable
    · exact startNow_reaches hnamed husable
  exact kind_mem_word (fun _ => sendsKind_of_asksRegister)
    (h.reaches isOpenly_asksRegister hinv hreaches hshows)

/-- Where it names a server with an address and a lifetime, an update is asked for, unless there
is no registration. -/
theorem sends_update (h : Performs setup s (.operation .update) own s')
    (hnamed : v.Names setup.hosts server) (haddress : server.info.address = some address)
    (hlifetime : server.lifetime.isSome = true) :
    .reported .updateSkipped ∈ own ∨ .update ∈ word (marksOf own) := by
  have hopenly : IsOpenly fun c => c = .log .updateSkipped ∨ AsksUpdate setup server c := by
    rintro c (rfl | h)
    · exact Or.inr ⟨_, rfl⟩
    · exact Or.inl (isAsked_of_sendsKind (sendsKind_of_asksUpdate h))
  have hreached := h.reaches hopenly hinv (updateNow_reaches hnamed haddress hlifetime) hshows
  exact (meets_or hreached).imp reported_mem (kind_mem_word fun _ => sendsKind_of_asksUpdate)

section

variable (hservers : v.servers? setup.hosts = some servers)
  (hfirst : servers.bootstrap.head? = some first) (haddress : first.address = some address)

include hservers hfirst haddress

/-- Where it names a bootstrap server with an address, a bootstrap is asked for, unless a session
is in progress. -/
theorem sends_bootstrap (h : Performs setup s (.operation .bootstrap) own s') :
    .reported .bootstrapInProgress ∈ own ∨ .bootstrap ∈ word (marksOf own) :=
  bootstrap_mem_word (h.reaches isOpenly_triesBootstrap hinv
    (bootstrapNow_reaches hservers hfirst haddress) hshows)

/-- A start that comes to no registration comes to a bootstrap. -/
theorem start_escalates {due : Duration} {number : Nat}
    (h : Performs setup s (.task due number .start) own s') :
    (∃ e ∈ own, e.Meets fun c => ∃ id, c = .log (.registeredAs id)) ∨
      .reported .bootstrapInProgress ∈ own ∨ .bootstrap ∈ word (marksOf own) :=
  (meets_or (h.reaches isOpenly_registersOrBootstraps hinv
    (startNow_escalates hservers hfirst haddress) hshows)).imp id bootstrap_mem_word

/-- So does an update that is neither skipped nor granted, and for which nothing is missing in the
configuration. -/
theorem update_escalates (h : Performs setup s (.operation .update) own s') :
    .reported .updateSkipped ∈ own ∨ .reported .updated ∈ own ∨
      (∃ e ∈ own, e.Meets fun c => ∃ error, c = .log (.updateFailed error)) ∨
      (∃ e ∈ own, e.Meets fun c => ∃ id, c = .log (.registeredAs id)) ∨
      .reported .bootstrapInProgress ∈ own ∨ .bootstrap ∈ word (marksOf own) := by
  have hopenly : IsOpenly (UpdatesOrEscalates setup first) := by
    rintro c (rfl | rfl | ⟨e, rfl⟩ | h)
    · exact Or.inr ⟨_, rfl⟩
    · exact Or.inr ⟨_, rfl⟩
    · exact Or.inr ⟨_, rfl⟩
    · exact isOpenly_registersOrBootstraps c h
  have hreached := h.reaches hopenly hinv (updateNow_escalates hservers hfirst haddress) hshows
  refine (meets_or hreached).imp reported_mem fun hrest => ?_
  refine (meets_or hrest).imp reported_mem fun hrest => (meets_or hrest).imp id fun hrest => ?_
  exact (meets_or hrest).imp id bootstrap_mem_word

end

end Performs

end Service
end Lwm2mClient
