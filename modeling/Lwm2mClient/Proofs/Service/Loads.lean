import Mathlib.Algebra.GroupWithZero.Nat
import Mathlib.Algebra.Order.BigOperators.Group.List
import Mathlib.Algebra.Order.Group.Nat
import Lwm2mClient.Proofs.Service.Positions

/-!
How much a timeline may still come to run up to a time. A task counts the more the earlier it is
due. An operation plans at most one renewal and sends at most four requests; where no server that
is offered has a lifetime as short as the margin, that renewal is due later than now, so it counts
less than a task that is due now.
-/
namespace Lwm2mClient.Service

open Net Engine Program

variable {env : Surroundings} {setup : Setup} {x x₁ x₂ : Position} {target : Duration} {α : Type}

/-! ### The load of a timeline -/

/-- How much the tasks that are due by a time may come to. -/
def load (target : Duration) (queue : List (Timeline.Entry Task)) : Nat :=
  (queue.map fun e => target.nanos + 1 - e.due.nanos).sum

theorem load_cons (e : Timeline.Entry Task) (queue : List (Timeline.Entry Task)) :
    load target (e :: queue) = (target.nanos + 1 - e.due.nanos) + load target queue := by
  rw [load, List.map_cons, List.sum_cons]
  rfl

theorem load_le_of_sublist {queue queue' : List (Timeline.Entry Task)}
    (h : queue'.Sublist queue) : load target queue' ≤ load target queue :=
  (h.map _).sum_le_sum fun _ _ => Nat.zero_le _

theorem load_cancelAny (t : Timeline Task) (handle : Option TaskHandle) :
    load target (Timeline.cancelAny t handle).queue ≤ load target t.queue := by
  rcases handle with - | ⟨number | -⟩
  · exact Nat.le_refl _
  · exact load_le_of_sublist List.filter_sublist
  · exact Nat.le_refl _

/-- A task that is due later than now adds no more than what is left of the time. -/
theorem load_schedule {t : Timeline Task} {delay : Duration} {task : Task} (hnow : t.now < .max)
    (hdelay : Duration.zero < delay) :
    load target (t.schedule delay task).2.queue ≤
      load target t.queue + (target.nanos - t.now.nanos) := by
  unfold Timeline.schedule
  split
  · exact Nat.le_add_right _ _
  · let entry : Timeline.Entry Task := ⟨t.now.saturatingAdd delay, t.accepted + 1, task⟩
    have hsum : load target (Timeline.enqueue entry t.queue) = load target (entry :: t.queue) :=
      ((Timeline.enqueue_perm entry t.queue).map _).sum_nat
    have hdue : t.now.nanos + 1 ≤ entry.due.nanos := by
      have hmax : t.now.nanos < Duration.maxNanos := hnow
      have hpos : 0 < delay.nanos := hdelay
      exact Nat.le_min.mpr ⟨by omega, by omega⟩
    change load target (Timeline.enqueue entry t.queue) ≤ _
    rw [hsum, load_cons]
    omega

/-! ### What an operation spends -/

/-- From one position to another some requests were sent, and a renewal was planned if `planned`
says so. -/
structure Spends (target : Duration) (requests : Nat) (planned : Bool)
    (x x' : Position) : Prop where
  now : x'.timeline.now = x.timeline.now
  load : load target x'.timeline.queue ≤
    load target x.timeline.queue + if planned then target.nanos - x.timeline.now.nanos else 0
  sent : x'.sent.length ≤ x.sent.length + requests

namespace Spends

variable {m n : Nat} {planned : Bool}

theorem refl (x : Position) : Spends target 0 false x x :=
  ⟨rfl, Nat.le_refl _, Nat.le_refl _⟩

theorem trans (h : Spends target m false x x₁) (h' : Spends target n planned x₁ x₂) :
    Spends target (m + n) planned x x₂ := by
  obtain ⟨hnow, hload, hsent⟩ := h
  obtain ⟨hnow', hload', hsent'⟩ := h'
  rw [hnow] at hload'
  refine ⟨hnow'.trans hnow, ?_, by omega⟩
  exact Nat.le_trans hload' (Nat.add_le_add_right hload _)

theorem mono (h : Spends target m planned x x₁) (hle : m ≤ n) : Spends target n planned x x₁ :=
  ⟨h.now, h.load, Nat.le_trans h.sent (Nat.add_le_add_left hle _)⟩

/-- A renewal may be planned without harm. -/
theorem weaken (h : Spends target m false x x₁) : Spends target m true x x₁ :=
  ⟨h.now, Nat.le_add_right_of_le h.load, h.sent⟩

theorem send (x : Position) (request : Request) : Spends target 1 false x (x.send request) :=
  ⟨rfl, Nat.le_refl _, Nat.le_refl _⟩

theorem hold (x : Position) (id : String) : Spends target 0 false x (x.hold id) :=
  ⟨rfl, Nat.le_refl _, Nat.le_refl _⟩

theorem cancelRenewal (x : Position) : Spends target 0 false x x.cancelRenewal :=
  ⟨Timeline.cancelAny_now _ _, load_cancelAny _ _, Nat.le_refl _⟩

theorem forget (x : Position) : Spends target 0 false x x.forget :=
  ⟨Timeline.cancelAny_now _ _, load_cancelAny _ _, Nat.le_refl _⟩

theorem planRenewal {delay : Duration} (hnow : x.timeline.now < .max)
    (hdelay : Duration.zero < delay) : Spends target 0 true x (x.planRenewal delay) where
  now := x.planRenewal_now delay
  load := Nat.le_trans (load_cancelAny _ _) (load_schedule hnow hdelay)
  sent := Nat.le_refl _

end Spends

/-! ### Lifetimes -/

/-- No server that the store may offer has a lifetime as short as the margin. -/
def Surroundings.Outlasts (env : Surroundings) (setup : Setup) : Prop :=
  ∀ server lifetime, env.Offers setup server lifetime →
    setup.settings.renewalMargin < .ofSeconds lifetime

theorem zero_lt_renewalDelay {settings : Settings} {lifetime : UInt64}
    (h : settings.renewalMargin < .ofSeconds lifetime) :
    Duration.zero < renewalDelay settings lifetime :=
  Nat.sub_pos_of_lt h

/-! ### Operations -/

namespace Spends

variable {x₀ : Position} {m : Nat} (henv : env.Outlasts setup)
  (hnow : x₀.timeline.now < .max)

include henv hnow

theorem keeps_registerNow {post : Bool → Position → Prop} (hx : Spends target m false x₀ x)
    (hgone : ∀ x', Spends target (m + 1) false x₀ x' → post false x')
    (hgranted : ∀ x', Spends target (m + 1) true x₀ x' → post true x') :
    (registerNow setup).Keeps (following env) post x := by
  apply Position.keeps_registerNow
  · exact hgone _ ((hx.trans (forget x)).mono (Nat.le_succ m))
  · intro request
    exact hgone _ ((hx.trans (send x request)).trans (forget _))
  · intro id server lifetime request hoffers
    have hdelay := zero_lt_renewalDelay (henv server lifetime hoffers)
    have hheld := (hx.trans (send x request)).trans (hold _ id)
    exact hgranted _ (hheld.trans (planRenewal (hheld.now.symm ▸ hnow) hdelay))

theorem keeps_bootstrapNow {post : Bool → Position → Prop} (hx : Spends target m false x₀ x)
    (h : ∀ v x', Spends target (m + 2) true x₀ x' → post v x') :
    (bootstrapNow setup).Keeps (following env) post x := by
  have hunsent : ∀ v, post v x := fun v => h v x (hx.mono (Nat.le_add_right m 2)).weaken
  refine Keeps.bind (Position.keeps_reading (requireBootstrap_reads setup) fun found => ?_)
  cases found with
  | error e => exact Keeps.bind (Position.keeps_line (hunsent false))
  | ok found =>
    refine Keeps.bind (Keeps.perform trivial ?_)
    rintro opened x' rfl
    cases opened with
    | false => exact Keeps.bind (Position.keeps_line (hunsent false))
    | true =>
      refine Keeps.bind
        (Position.keeps_fire (Keeps.bind (Position.keeps_send fun answer _ => ?_)))
      have hsent := hx.trans (send x' (.bootstrap setup.settings.endpoint))
      refine Keeps.bind (Position.keeps_awaitBootstrap fun finished =>
        Keeps.bind (Keeps.perform trivial ?_))
      rintro ⟨⟩ x₁ rfl
      cases finished with
      | false =>
        refine Keeps.bind (Position.keeps_forget (h false _ ?_))
        exact ((hsent.trans (forget _)).mono (Nat.le_succ _)).weaken
      | true =>
        refine Keeps.bind (Position.keeps_line (keeps_registerNow henv hnow hsent ?_ ?_))
        · exact fun x' hx' => h false x' hx'.weaken
        · exact fun x' hx' => h true x' hx'

theorem keeps_registerOrBootstrap {post : Bool → Position → Prop}
    (hx : Spends target m false x₀ x) (h : ∀ v x', Spends target (m + 3) true x₀ x' → post v x') :
    (registerNow setup >>= fun registered =>
      if registered = true then pure true else bootstrapNow setup).Keeps
        (following env) post x := by
  refine Keeps.bind (keeps_registerNow henv hnow hx ?_ ?_)
  · intro x' hx'
    exact keeps_bootstrapNow henv hnow hx' h
  · intro x' hx'
    exact h true x' (hx'.mono (by omega))

omit hnow in
theorem keeps_sendUpdate {id : String} {post : Except Error UInt64 → Position → Prop}
    (hx : Spends target m false x₀ x)
    (h : ∀ result x', Spends target (m + 1) false x₀ x' →
      (∀ lifetime, result = .ok lifetime → Duration.zero < renewalDelay setup.settings lifetime) →
        post result x') :
    (sendUpdate setup id).Keeps (following env) post x := by
  have hsent := hx.trans (send x (.update id))
  apply Position.keeps_sendUpdate
  · intro e
    exact h _ x (hx.mono (Nat.le_succ m)) nofun
  · intro e
    exact h _ _ hsent nofun
  · intro server lifetime hoffers
    refine h _ _ hsent fun _ hlifetime => ?_
    cases hlifetime
    exact zero_lt_renewalDelay (henv server lifetime hoffers)

theorem keeps_updateNow {post : Bool → Position → Prop} (hx : Spends target m false x₀ x)
    (h : ∀ v x', Spends target (m + 4) true x₀ x' → post v x') :
    (updateNow setup).Keeps (following env) post x := by
  have hcancelled := hx.trans (cancelRenewal x)
  refine Keeps.bind
    (Position.keeps_cancelRenewal (Keeps.bind (Position.keeps_registration fun r _ => ?_)))
  split
  · exact Keeps.bind (Position.keeps_line (h _ _ (hcancelled.mono (Nat.le_add_right m 4)).weaken))
  · refine Keeps.bind (Position.keeps_fire (Keeps.bind (keeps_sendUpdate henv hcancelled ?_)))
    intro result x₁ hx₁ hdelay
    have hforgotten := hx₁.trans (forget x₁)
    split
    · rename_i lifetime
      refine Keeps.bind
        (Position.keeps_line (Keeps.bind (Position.keeps_planRenewal (Keeps.bind ?_))))
      have hplanned := hx₁.trans (planRenewal (hx₁.now.symm ▸ hnow) (hdelay lifetime rfl))
      exact Position.keeps_fire (h true _ (hplanned.mono (by omega)))
    · refine Keeps.bind (Position.keeps_line (Keeps.bind (Position.keeps_forget ?_)))
      refine keeps_bootstrapNow henv hnow hforgotten fun v x' hx' => h v x' ?_
      exact hx'.mono (by omega)
    · exact Keeps.bind (Position.keeps_line (keeps_registerOrBootstrap henv hnow hx₁ h))
    · refine Keeps.bind (Position.keeps_line (Keeps.bind (Position.keeps_forget (h false _ ?_))))
      exact (hforgotten.mono (by omega)).weaken

theorem keeps_startNow {post : Bool → Position → Prop} (hx : Spends target m false x₀ x)
    (h : ∀ v x', Spends target (m + 3) true x₀ x' → post v x') :
    (startNow setup).Keeps (following env) post x := by
  refine Keeps.bind (Position.keeps_line (Keeps.bind ?_))
  refine Position.keeps_reading (knowsManagement_reads setup) fun known => ?_
  cases known with
  | true => exact keeps_registerOrBootstrap henv hnow hx h
  | false =>
    refine keeps_bootstrapNow henv hnow hx fun v x' hx' => h v x' ?_
    exact hx'.mono (Nat.le_succ _)

/-- Whatever an engine leaves to its timeline sends at most four requests and plans at most one
renewal. -/
theorem keeps_task {post : Bool → Position → Prop} (due : Duration) (number : Nat) (work : Work)
    (h : ∀ v x', Spends target 4 true x₀ x' → post v x') :
    ((Job.task due number work).body setup).Keeps (following env) post x₀ := by
  have hstart : Spends target 0 false x₀ x₀ := refl x₀
  cases work with
  | start =>
    refine keeps_startNow henv hnow hstart fun v x' hx' => h v x' ?_
    exact hx'.mono (by decide)
  | renewal generation =>
    refine Keeps.bind (Position.keeps_registration fun r _ => ?_)
    split
    · exact Keeps.bind (Position.keeps_line (h _ _ (hstart.mono (by decide)).weaken))
    · exact keeps_updateNow henv hnow hstart fun v x' hx' => h v x' (hx'.mono (by decide))

end Spends
end Lwm2mClient.Service
