import Lwm2mClient.Proofs.Monitors
import Lwm2mClient.Proofs.Service.Moves

/-!
Monitored operations of an engine in service. The state of a monitor stands for what can be seen
of the client and of the history; as long as an operation keeps to the monitor this is so wherever
it comes to a call to the surroundings, and where it ends. A monitor that every job keeps to
therefore tells of a service at every moment: between its operations what each of them comes back
to, and in the middle of one what the monitor permits there.
-/
namespace Lwm2mClient.Service

open Engine

variable {σ α : Type} {m : Monitor σ} {sees : σ → Client Task → List Event → Prop}
  {post : Job → Bool → σ → Prop} {rests : Client Task → List Event → Prop} {setup : Setup}
    {s s' : Service}

/-- The calls that a client answers by itself move a monitor to where it sees the client again.
Operations that have their turn are all that is monitored. -/
structure Sees (m : Monitor σ) (sees : σ → Client Task → List Event → Prop) : Prop where
  ofTurn : ∀ x c, m.permits x c → c ≠ .acquire ∧ c ≠ .release
  reply : ∀ x client history c reply, sees x client history → m.permits x c →
    client.answer? .work c = some reply → ∃ x', m.moves x c reply.answer x' ∧
      sees x' reply.client (reply.lines.reverse.map .reported ++ history)

/-- A call that is not answered is one to the surroundings, if it is made by an
operation that has its turn. -/
theorem isAsked_of_none {c : Call} {client : Client Task} (hacquire : c ≠ .acquire)
    (hrelease : c ≠ .release) (h : client.answer? .work c = none) : isAsked c = true := by
  cases c <;> simp_all [isAsked, Client.answer?]

/-- A monitored program that goes on by itself stays monitored. -/
theorem Sees.proceed (hm : Sees m sees) {p : Program α} {post : α → σ → Prop} {x : σ}
    {client : Client Task} {history : List Event} (hp : p.Keeps m post x)
    (hx : sees x client history) :
    (proceed true p client).holds = true ∧ ∃ x',
      sees x' (proceed true p client).client
        ((proceed true p client).lines.reverse.map .reported ++ history) ∧
      (proceed true p client).rest.Keeps m post x' ∧
      ∀ c next, (proceed true p client).rest = .call c next → isAsked c = true := by
  induction p generalizing x client history with
  | done value => exact ⟨rfl, x, hx, hp, by intro c next h; cases h⟩
  | call c next ih =>
    obtain ⟨hacquire, hrelease⟩ := hm.ofTurn x c hp.1
    cases hreply : client.answer? .work c with
    | none =>
      rw [proceed_of_none hrelease hreply]
      refine ⟨rfl, x, hx, hp, ?_⟩
      intro c' next' h
      cases h
      exact isAsked_of_none hacquire hrelease hreply
    | some reply =>
      obtain ⟨x₁, hmove, hx₁⟩ := hm.reply x client history c reply hx hp.1 hreply
      obtain ⟨hholds, x', hx', hrest⟩ := ih reply.answer (hp.2 reply.answer x₁ hmove) hx₁
      rw [proceed_of_reply hreply]
      refine ⟨hholds, x', ?_, hrest⟩
      rw [List.reverse_append, List.map_append, List.append_assoc]
      exact hx'

/-- A thread is in the middle of its work, which a monitor follows. -/
def Followed (m : Monitor σ) (sees : σ → Client Task → List Event → Prop)
    (post : Job → Bool → σ → Prop) (thread : Thread) (s : Service) : Prop :=
  ∃ c next x, isAsked c = true ∧ thread.rest = .call c (fun a => next a >>= thread.job.close) ∧
    sees x s.client s.history ∧ (Program.call c next).Keeps m (post thread.job) x

/-- The turn of a thread is over. -/
def Completed (sees : σ → Client Task → List Event → Prop) (post : Job → Bool → σ → Prop)
    (job : Job) (s : Service) : Prop :=
  ∃ result x history, sees x s.client history ∧ post job result x ∧
    s.history = .ended job result :: history

/-- A monitored thread that goes on comes to a call to the surroundings or to its end. -/
theorem Sees.enter (hm : Sees m sees) {job : Job} {p : Program Bool} {x : σ}
    (hcurrent : s.current = none) (hp : p.Keeps m (post job) x) (hx : sees x s.client s.history) :
    (s.enter true job (p >>= job.close)).current = none ∧
        Completed sees post job (s.enter true job (p >>= job.close)) ∨
      ∃ thread, (s.enter true job (p >>= job.close)).current = some thread ∧
        Followed m sees post thread (s.enter true job (p >>= job.close)) := by
  obtain ⟨hholds, x', hx', hrest, hasked⟩ := hm.proceed hp hx
  cases hend : (Service.proceed true p s.client).rest with
  | done result =>
    rw [hend] at hrest
    rw [enter_of_finished hholds hend, depart_eq]
    let history := (Service.proceed true p s.client).lines.reverse.map .reported ++ s.history
    refine Or.inl ⟨?_, result, x', history, ?_, hrest, ?_⟩
    · change (Service.report _ _).current = none
      rw [report_eq]
      exact hcurrent
    · change sees x' (Service.report _ _).client history
      rw [report_eq]
      exact hx'
    · change Event.ended job result :: (Service.report _ _).history = _
      rw [report_history]
  | call c next =>
    rw [hend] at hrest
    rw [enter_of_asking hholds hend]
    refine Or.inr ⟨_, rfl, c, next, x', hasked c next hend, rfl, ?_, hrest⟩
    rw [report_eq]
    dsimp only
    rw [report_history]
    exact hx'

/-! ### Services -/

/-- A monitor of the jobs of a service. Where no operation is in progress `rests` is known of the
client and the history: it is enough to begin with, and every job comes back to it. -/
structure Serves (setup : Setup) (m : Monitor σ) (sees : σ → Client Task → List Event → Prop)
    (post : Job → Bool → σ → Prop) (rests : Client Task → List Event → Prop) : Prop where
  replies : Sees m sees
  begins : ∀ (job : Job) client history, rests client history →
    ∃ x, sees x client history ∧ (job.body setup).Keeps m (post job) x
  hears : ∀ x client history c a clock, sees x client history → m.permits x c → isAsked c = true →
    ∃ x', m.moves x c a x' ∧ sees x' client (.answered c a clock :: history)
  ends : ∀ job result x client history, sees x client history → post job result x →
    rests client (.ended job result :: history)

/-- What a monitor tells of a service in between. -/
structure Monitored (m : Monitor σ) (sees : σ → Client Task → List Event → Prop)
    (post : Job → Bool → σ → Prop) (rests : Client Task → List Event → Prop)
    (s : Service) : Prop where
  idle : s.current = none → rests s.client s.history
  busy : ∀ thread, s.current = some thread → Followed m sees post thread s

theorem Serves.enter (hm : Serves setup m sees post rests) {job : Job} {p : Program Bool} {x : σ}
    (hcurrent : s.current = none) (hp : p.Keeps m (post job) x) (hx : sees x s.client s.history) :
    Monitored m sees post rests (s.enter true job (p >>= job.close)) := by
  rcases hm.replies.enter hcurrent hp hx with ⟨hnone, hend⟩ | ⟨thread, hthread, hfollowed⟩
  · refine ⟨fun _ => ?_, fun _ hthread => absurd (hnone.symm.trans hthread) (by simp)⟩
    obtain ⟨result, x', history, hx', hpost, hhistory⟩ := hend
    rw [hhistory]
    exact hm.ends job result x' _ history hx' hpost
  · refine ⟨fun hnone => absurd (hthread.symm.trans hnone) (by simp), ?_⟩
    intro thread' hthread'
    cases hthread.symm.trans hthread'
    exact hfollowed

theorem Serves.turn (hm : Serves setup m sees post rests) (h : Monitored m sees post rests s)
    {index : Nat} (hpending : ∀ thread ∈ s.waiting, thread.rest = thread.job.pending setup)
    (hstep : step setup s (.turn index) = some s') : Monitored m sees post rests s' := by
  obtain ⟨job, hcurrent, -, rfl⟩ := step_turn hstep hpending
  obtain ⟨x, hx, hkeeps⟩ := hm.begins job s.client s.history (h.idle hcurrent)
  exact hm.enter hcurrent hkeeps hx

theorem Serves.answer (hm : Serves setup m sees post rests) (h : Monitored m sees post rests s)
    {answer : Answer} (hstep : step setup s (.answer answer) = some s') :
    Monitored m sees post rests s' := by
  obtain ⟨job, c, next, a, hcurrent, -, rfl⟩ := step_answer hstep
  obtain ⟨c', next', x, hasked, hrest, hx, hpermits, hkeeps⟩ := h.busy _ hcurrent
  dsimp only at hrest
  cases hrest
  obtain ⟨x', hmove, hx'⟩ :=
    hm.hears x s.client s.history c a s.client.scheduler.clock hx hpermits hasked
  exact hm.enter rfl (hkeeps a x' hmove) hx'

/-- What happens aside leaves the monitor in its state. -/
theorem Monitored.aside (h : Monitored m sees post rests s) (hcurrent : s'.current = s.current)
    (hrests : rests s.client s.history → rests s'.client s'.history)
    (hsees : ∀ x, sees x s.client s.history → sees x s'.client s'.history) :
    Monitored m sees post rests s' := by
  refine ⟨fun hnone => hrests (h.idle (hcurrent ▸ hnone)), fun thread hthread => ?_⟩
  obtain ⟨c, next, x, hasked, hrest, hx, hkeeps⟩ := h.busy thread (hcurrent ▸ hthread)
  exact ⟨c, next, x, hasked, hrest, hsees x hx, hkeeps⟩

end Lwm2mClient.Service
