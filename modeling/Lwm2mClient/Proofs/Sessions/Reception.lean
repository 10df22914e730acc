import Lwm2mClient.Proofs.Sessions.Heralds
import Lwm2mClient.Proofs.Sessions.Messages
import Lwm2mClient.Proofs.Service.Moves
import Lwm2mClient.Proofs.Service.Runs
import Mathlib.Algebra.GroupWithZero.Nat

/-!
An engine in service whose gate is reached by messages, and which is the only one to open
sessions. A wait for the end of a session claims what the gate keeps and lasts until the gate says
that the session is finished or that it never will be, or until the time of the wait is over. Time
does not pass a deadline by.
-/
namespace Lwm2mClient

open Net Engine

structure Reception.Wait where
  session : Nat
  /-- In nanoseconds. -/
  deadline : Nat

structure Reception where
  service : Service
  /-- How much time has passed, in nanoseconds. -/
  elapsed : Nat := 0
  /-- The wait in which the operation in progress is. -/
  wait : Option Reception.Wait := none

namespace Reception

inductive Input where
  | service (input : Service.Input)
  | receive (message : Message)
  /-- The operation in progress begins the wait that it asks for. -/
  | beginWait
  | endWait
  | pass (nanos : Nat)

/-- Whether the service decides about an input by itself: here the gate changes by messages alone,
and a wait ends as the gate says. -/
def isOwn : Service.Input → Bool
  | .gate _ | .answer (.flag _) => false
  | _ => true

def gate (r : Reception) : Gate := r.service.client.gate

def withGate (r : Reception) (gate : Gate) : Reception :=
  { r with service := { r.service with client := { r.service.client with gate := gate } } }

/-- What the operation in progress asks of its surroundings. -/
def asked? (r : Reception) : Option Call :=
  match r.service.current with
  | some ⟨_, .call c _⟩ => some c
  | _ => none

/-- The operation in progress learns how its wait ended. -/
def conclude (setup : Setup) (r : Reception) (finished : Bool) : Option Reception :=
  (r.service.step setup (.answer (.flag finished))).map fun service =>
    { r with service := service, wait := none }

/-- Whether a wait is over. -/
def isOver (r : Reception) (wait : Wait) : Bool :=
  r.gate.isFinished wait.session || !r.gate.mayFinish wait.session || wait.deadline ≤ r.elapsed

/-- What an input leads to, if it is possible. -/
def step (setup : Setup) (r : Reception) : Input → Option Reception
  | .service input =>
    if isOwn input then
      (r.service.step setup input).map fun service => { r with service := service }
    else none
  | .receive message => some (r.withGate (r.gate.receive message))
  | .beginWait =>
    match r.wait, r.asked? with
    | none, some (.awaitFinish timeout) =>
      match r.gate.claim with
      | (some session, gate) =>
        some { r.withGate gate with wait := some ⟨session, r.elapsed + timeout.nanos⟩ }
      | (none, gate) => (r.withGate gate).conclude setup false
    | _, _ => none
  | .endWait =>
    match r.wait with
    | some wait =>
      if r.isOver wait then
        (r.withGate (r.gate.release wait.session)).conclude setup (r.gate.isFinished wait.session)
      else none
    | none => none
  | .pass nanos =>
    if r.wait.all fun wait => r.elapsed + nanos ≤ wait.deadline then
      some { r with elapsed := r.elapsed + nanos }
    else none

/-- What a sequence of inputs leads to, if each of them is possible. -/
def run (setup : Setup) (r : Reception) : List Input → Option Reception
  | [] => some r
  | input :: rest => (step setup r input).bind fun r => run setup r rest

/-! ### What happens aside -/

namespace Input

/-- Whether an input leaves the operation in progress alone. -/
def isAside : Input → Bool
  | service input => input.isAside
  | receive _ | pass _ => true
  | beginWait | endWait => false

/-- The messages that reach the gate. Shutting the engine down cancels the session. -/
def messages : Input → List Message
  | receive message => [message]
  | service (.operate .shutdown) => [.cancel]
  | _ => []

def nanos : Input → Nat
  | pass nanos => nanos
  | _ => 0

end Input

/-- The messages that reach the gate, in order. -/
def messages (inputs : List Input) : List Message := inputs.flatMap Input.messages

/-- How much time passes. -/
def duration (inputs : List Input) : Nat := (inputs.map Input.nanos).sum

/-- The messages with the time at which each of them arrives, from an instant on. -/
def arrivals : Nat → List Input → List (Nat × Message)
  | _, [] => []
  | time, input :: rest => input.messages.map (time, ·) ++ arrivals (time + input.nanos) rest

theorem arrivals_snd (time : Nat) (inputs : List Input) :
    (arrivals time inputs).map Prod.snd = messages inputs := by
  induction inputs generalizing time with
  | nil => rfl
  | cons input rest ih =>
    have hnow : (input.messages.map (time, ·)).map Prod.snd = input.messages := by
      rw [List.map_map]
      exact List.map_id _
    rw [arrivals, List.map_append, ih, hnow, messages, messages, List.flatMap_cons]

theorem arrivals_le {time : Nat} {inputs : List Input} {x : Nat × Message}
    (h : x ∈ arrivals time inputs) : time ≤ x.1 ∧ x.1 ≤ time + duration inputs := by
  induction inputs generalizing time with
  | nil => cases h
  | cons input rest ih =>
    rw [duration, List.map_cons, List.sum_cons]
    rcases List.mem_append.mp h with hnow | hlater
    · obtain ⟨m, -, rfl⟩ := List.mem_map.mp hnow
      exact ⟨Nat.le_refl _, Nat.le_add_right _ _⟩
    · obtain ⟨hfrom, hto⟩ := ih hlater
      rw [duration] at hto
      omega

variable {setup : Setup} {r r' : Reception}

/-- The operation in progress, its wait and the registration are left alone. The gate takes the
messages. -/
structure Meanwhile (r : Reception) (inputs : List Input) (r' : Reception) : Prop where
  current : r'.service.current = r.service.current
  registration : r'.service.client.registration = r.service.client.registration
  wait : r'.wait = r.wait
  gate : r'.gate = r.gate.receiveAll (messages inputs)
  elapsed : r'.elapsed = r.elapsed + duration inputs
  deadline : ∀ wait, r.wait = some wait → r.elapsed ≤ wait.deadline → r'.elapsed ≤ wait.deadline

theorem Meanwhile.refl (r : Reception) : Meanwhile r [] r :=
  ⟨rfl, rfl, rfl, rfl, rfl, fun _ _ h => h⟩

theorem Meanwhile.cons {input : Input} {inputs : List Input} {r₁ : Reception}
    (h : Meanwhile r [input] r₁) (hrest : Meanwhile r₁ inputs r') :
    Meanwhile r (input :: inputs) r' := by
  have hmessages : messages (input :: inputs) = messages [input] ++ messages inputs := by
    simp [messages]
  have hduration : duration (input :: inputs) = duration [input] + duration inputs := by
    simp [duration]
  refine ⟨hrest.current.trans h.current, hrest.registration.trans h.registration,
    hrest.wait.trans h.wait, ?_, ?_, ?_⟩
  · rw [hrest.gate, h.gate, hmessages, Gate.receiveAll, Gate.receiveAll, Gate.receiveAll,
      List.foldl_append]
  · rw [hrest.elapsed, h.elapsed, hduration, Nat.add_assoc]
  · intro wait hwait hle
    exact hrest.deadline wait (h.wait.trans hwait) (h.deadline wait hwait hle)

theorem step_meanwhile {input : Input} (hstep : step setup r input = some r')
    (haside : input.isAside = true) : Meanwhile r [input] r' := by
  cases input with
  | service input =>
    simp only [step] at hstep
    split at hstep
    · rename_i hown
      obtain ⟨s', hs', heq⟩ := Option.map_eq_some_iff.mp hstep
      cases heq
      have h := Service.step_aside hs' haside
      refine ⟨h.current, h.registration, rfl, ?_, rfl, fun _ _ h => h⟩
      change s'.client.gate = r.gate.receiveAll _
      rw [h.gate]
      cases input with
      | operate operation => cases operation <;> rfl
      | gate g => cases hown
      | _ => rfl
    · cases hstep
  | receive message =>
    cases hstep
    exact ⟨rfl, rfl, rfl, rfl, rfl, fun _ _ h => h⟩
  | beginWait => cases haside
  | endWait => cases haside
  | pass nanos =>
    simp only [step] at hstep
    split at hstep
    · rename_i hall
      cases hstep
      refine ⟨rfl, rfl, rfl, rfl, rfl, ?_⟩
      intro wait hwait _
      rw [hwait] at hall
      exact of_decide_eq_true hall
    · cases hstep

theorem run_meanwhile {inputs : List Input} (hrun : run setup r inputs = some r')
    (haside : ∀ input ∈ inputs, input.isAside = true) : Meanwhile r inputs r' := by
  induction inputs generalizing r with
  | nil =>
    cases hrun
    exact Meanwhile.refl _
  | cons input rest ih =>
    obtain ⟨r₁, hstep, hrest⟩ := Option.bind_eq_some_iff.mp hrun
    have h := step_meanwhile hstep (haside input List.mem_cons_self)
    exact h.cons (ih hrest fun i hi => haside i (List.mem_cons_of_mem input hi))

/-! ### What holds throughout -/

/-- Work never waits for the end of a session by itself. -/
theorem proceed_claimed {α : Type} (holds : Bool) (p : Program α) (client : Client Service.Task) :
    (Service.proceed holds p client).client.gate.claimed = client.gate.claimed := by
  induction p generalizing holds client with
  | done value => rfl
  | call c next ih =>
    by_cases hrelease : c = .release
    · subst hrelease
      rfl
    · cases hreply : client.answer? .work c with
      | none => rw [Service.proceed_of_none hrelease hreply]
      | some reply =>
        rw [Service.proceed_of_reply hreply]
        refine (ih reply.answer holds reply.client).trans ?_
        cases c <;> cases hreply <;>
          first | rfl | exact Gate.tryOpen_claimed _ _ | exact Gate.close_claimed _

/-- What a client whose gate takes messages keeps. -/
structure Attended (setup : Setup) (r : Reception) : Prop where
  inv : Service.Inv setup r.service
  /-- Nothing is held but by the one who waits. -/
  held : r.gate.claimed.map (·.session) = (r.wait.map (·.session)).toList
  waiting : ∀ wait, r.wait = some wait → ∃ timeout, r.asked? = some (.awaitFinish timeout)
  heralds : ∀ thread, r.service.current = some thread →
    ∃ opened, Heralds setup thread.job.close opened thread.rest

namespace Attended

/-- Nothing is held while nobody waits. -/
theorem claimed (h : Attended setup r) (hwait : r.wait = none) : r.gate.claimed = [] := by
  have hheld := h.held
  rw [hwait] at hheld
  exact List.map_eq_nil_iff.mp hheld

/-- Whoever waits has asked for it. -/
theorem current_of_wait (h : Attended setup r) {wait : Wait} (hwait : r.wait = some wait) :
    ∃ job timeout next, r.service.current = some ⟨job, .call (.awaitFinish timeout) next⟩ := by
  obtain ⟨timeout, hasked⟩ := h.waiting wait hwait
  unfold asked? at hasked
  split at hasked
  · rename_i job c next hcurrent
    cases hasked
    exact ⟨job, timeout, next, hcurrent⟩
  · cases hasked

theorem meanwhile {inputs : List Input} (h : Attended setup r) (hm : Meanwhile r inputs r')
    (hinv : Service.Inv setup r'.service) : Attended setup r' := by
  have hasked : r'.asked? = r.asked? := by
    unfold asked?
    rw [hm.current]
  refine ⟨hinv, ?_, ?_, ?_⟩
  · rw [hm.gate, Gate.receiveAll_claimed, hm.wait]
    exact h.held
  · intro wait hwait
    rw [hasked]
    exact h.waiting wait (hm.wait.symm.trans hwait)
  · intro thread hthread
    exact h.heralds thread (hm.current.symm.trans hthread)

theorem openedBy_of_to? {answer : Service.Answer} {c : Call} {a : c.Answer}
    (ha : answer.to? c = some a) (opened : Option ServerInfo) : openedBy opened c a = none := by
  cases c <;> first | rfl | cases ha

/-- Nobody waits where the service does something else than what happens aside. -/
theorem wait_eq_none (h : Attended setup r) {input : Service.Input} {s' : Service}
    (hstep : r.service.step setup input = some s') (hown : isOwn input = true)
    (haside : input.isAside = false) : r.wait = none := by
  cases hwait : r.wait with
  | none => rfl
  | some wait =>
    obtain ⟨job, timeout, next, hcurrent⟩ := h.current_of_wait hwait
    cases input with
    | turn index =>
      obtain ⟨-, hnone, -⟩ := Service.step_turn hstep h.inv.waiting
      cases hcurrent.symm.trans hnone
    | answer answer =>
      obtain ⟨_, _, _, _, hasked, ha, -⟩ := Service.step_answer hstep
      cases hcurrent.symm.trans hasked
      cases answer with
      | flag finished => cases hown
      | _ => cases ha
    | fail =>
      obtain ⟨_, _, _, hasked, hfails, -⟩ := Service.step_fail hstep
      cases hcurrent.symm.trans hasked
      cases hfails
    | _ => cases haside

/-- A wait has begun: the gate has handed the completion over to the one who waits. -/
structure Begun (r : Reception) (r' : Reception) : Prop where
  current : r'.service.current = r.service.current
  completion : ∃ c timeout, r.asked? = some (.awaitFinish timeout) ∧ r.gate.unclaimed = some c ∧
    r'.gate = { r.gate with unclaimed := none, claimed := [c] } ∧
    r'.wait = some ⟨c.session, r.elapsed + timeout.nanos⟩

/-- The operation in progress goes on, nobody waits, and every Bootstrap request is heralded. -/
structure Entered (setup : Setup) (r' : Reception) : Prop where
  wait : r'.wait = none
  entered : ∃ (s : Service) (job : Service.Job) (p : Program Bool), s.current = none ∧
    s.client.gate.claimed = [] ∧ Heralds setup job.close none p ∧ r'.service = s.enter true job p

theorem Entered.of_enter {s : Service} {job : Service.Job} {p : Program Bool} {elapsed : Nat}
    {wait : Option Wait} (hwait : wait = none) (hcurrent : s.current = none)
    (hclaimed : s.client.gate.claimed = []) (hp : Heralds setup job.close none p) :
    Entered setup { service := s.enter true job p, elapsed, wait } :=
  ⟨hwait, s, job, p, hcurrent, hclaimed, hp, rfl⟩

theorem conclude_entered {finished : Bool} (hclaimed : r.gate.claimed = [])
    (hheralds : ∀ thread, r.service.current = some thread →
      ∃ opened, Heralds setup thread.job.close opened thread.rest)
    (hr' : r.conclude setup finished = some r') : Entered setup r' := by
  obtain ⟨s', hstep, hs'⟩ := Option.map_eq_some_iff.mp hr'
  cases hs'
  obtain ⟨job, c, next, a, hcurrent, ha, rfl⟩ := Service.step_answer hstep
  obtain ⟨opened, -, hnext⟩ := hheralds _ hcurrent
  exact .of_enter rfl rfl hclaimed (openedBy_of_to? ha opened ▸ hnext a)

/-- Every step is one of the service, where only the gate may change besides. -/
theorem inv_step {input : Input} (h : Attended setup r)
    (hstep : Reception.step setup r input = some r') : Service.Inv setup r'.service := by
  have hconclude : ∀ (gate : Gate) (finished : Bool),
      (r.withGate gate).conclude setup finished = some r' → Service.Inv setup r'.service := by
    intro gate finished hr'
    obtain ⟨s', hs', heq⟩ := Option.map_eq_some_iff.mp hr'
    cases heq
    have hgate : Service.Inv setup (r.withGate gate).service := h.inv.gate gate
    exact hgate.step hs'
  cases input with
  | service input =>
    simp only [Reception.step] at hstep
    split at hstep
    · obtain ⟨s', hs', heq⟩ := Option.map_eq_some_iff.mp hstep
      cases heq
      exact h.inv.step hs'
    · cases hstep
  | receive message =>
    cases hstep
    exact h.inv.gate _
  | beginWait =>
    simp only [Reception.step] at hstep
    split at hstep
    · split at hstep
      · cases hstep
        exact h.inv.gate _
      · exact hconclude _ _ hstep
    · cases hstep
  | endWait =>
    simp only [Reception.step] at hstep
    split at hstep
    · split at hstep
      · exact hconclude _ _ hstep
      · cases hstep
    · cases hstep
  | pass nanos =>
    simp only [Reception.step] at hstep
    split at hstep
    · cases hstep
      exact h.inv
    · cases hstep

/-- What a step can be. -/
theorem step_cases {input : Input} (h : Attended setup r)
    (hstep : Reception.step setup r input = some r') :
    Meanwhile r [input] r' ∨ Begun r r' ∨ Entered setup r' ∨
      r'.service.current = none ∧ r'.wait = none ∧ r'.gate = r.gate ∧ r.wait = none := by
  cases input with
  | receive message => exact Or.inl (step_meanwhile hstep rfl)
  | pass nanos => exact Or.inl (step_meanwhile hstep rfl)
  | service input =>
    by_cases haside : input.isAside = true
    · exact Or.inl (step_meanwhile hstep haside)
    · simp only [Reception.step] at hstep
      split at hstep
      · rename_i hown
        obtain ⟨s', hs', heq⟩ := Option.map_eq_some_iff.mp hstep
        cases heq
        have hwait := h.wait_eq_none hs' hown (by simpa using haside)
        right; right
        cases input with
        | turn index =>
          obtain ⟨job, hcurrent, -, rfl⟩ := Service.step_turn hs' h.inv.waiting
          exact Or.inl (.of_enter hwait hcurrent (h.claimed hwait) (job.heralds_body setup))
        | answer answer =>
          obtain ⟨job, c, next, a, hcurrent, ha, rfl⟩ := Service.step_answer hs'
          obtain ⟨opened, -, hnext⟩ := h.heralds _ hcurrent
          exact Or.inl
            (.of_enter hwait rfl (h.claimed hwait) (openedBy_of_to? ha opened ▸ hnext a))
        | fail =>
          obtain ⟨job, c, next, -, -, rfl⟩ := Service.step_fail hs'
          exact Or.inr ⟨rfl, hwait, rfl, hwait⟩
        | _ => exact absurd rfl haside
      · cases hstep
  | beginWait =>
    simp only [Reception.step] at hstep
    split at hstep
    · rename_i timeout hwait hasked
      split at hstep
      · rename_i session gate hclaim
        cases hstep
        unfold Gate.claim at hclaim
        split at hclaim
        · rename_i c hc
          cases hclaim
          have hgate : { r.gate with unclaimed := none, claimed := c :: r.gate.claimed } =
              { r.gate with unclaimed := none, claimed := [c] } := by
            rw [h.claimed hwait]
          exact Or.inr (Or.inl ⟨rfl, c, timeout, hasked, hc, hgate, rfl⟩)
        · cases hclaim
      · rename_i gate hclaim
        unfold Gate.claim at hclaim
        split at hclaim
        · cases hclaim
        · cases hclaim
          exact Or.inr (Or.inr (Or.inl (conclude_entered (h.claimed hwait) h.heralds hstep)))
    · cases hstep
  | endWait =>
    simp only [Reception.step] at hstep
    split at hstep
    · rename_i wait hwait
      split at hstep
      · have hheld := h.held
        rw [hwait] at hheld
        have hreleased : (r.withGate (r.gate.release wait.session)).gate.claimed = [] := by
          change r.gate.claimed.filter (·.session ≠ wait.session) = []
          rw [List.filter_eq_nil_iff]
          intro c hc
          have hsession : c.session ∈ r.gate.claimed.map (·.session) := List.mem_map_of_mem hc
          rw [hheld] at hsession
          simpa using hsession
        exact Or.inr (Or.inr (Or.inl (conclude_entered hreleased h.heralds hstep)))
      · cases hstep
    · cases hstep

theorem step {input : Input} (h : Attended setup r)
    (hstep : Reception.step setup r input = some r') : Attended setup r' := by
  have hinv := h.inv_step hstep
  rcases h.step_cases hstep with hm | hbegun | hentered | ⟨hcurrent, hwait, hgate, hwait₀⟩
  · exact h.meanwhile hm hinv
  · obtain ⟨c, timeout, hasked, -, hgate, hwait⟩ := hbegun.completion
    refine ⟨hinv, by rw [hgate, hwait]; rfl, ?_, ?_⟩
    · intro _ _
      refine ⟨timeout, ?_⟩
      rw [← hasked, asked?, asked?, hbegun.current]
    · intro thread hthread
      exact h.heralds thread (hbegun.current.symm.trans hthread)
  · obtain ⟨s, job, p, hcurrent, hclaimed, hp, hservice⟩ := hentered.entered
    refine ⟨hinv, ?_, ?_, ?_⟩
    · rw [hentered.wait, gate, hservice, Service.enter_client, proceed_claimed, hclaimed]
      rfl
    · intro wait hwait
      cases hentered.wait.symm.trans hwait
    · intro thread hthread
      rw [hservice] at hthread
      rw [Service.enter_current hcurrent hthread]
      obtain ⟨opened, hrest, -⟩ := hp.proceed true s.client (by simp)
      exact ⟨opened, hrest⟩
  · refine ⟨hinv, ?_, ?_, ?_⟩
    · rw [hgate, hwait, h.claimed hwait₀]
      rfl
    · intro wait hsome
      cases hwait.symm.trans hsome
    · intro thread hthread
      cases hcurrent.symm.trans hthread

theorem run {inputs : List Input} (h : Attended setup r)
    (hrun : Reception.run setup r inputs = some r') : Attended setup r' := by
  induction inputs generalizing r with
  | nil =>
    cases hrun
    exact h
  | cons input rest ih =>
    obtain ⟨r₁, hstep, hrest⟩ := Option.bind_eq_some_iff.mp hrun
    exact ih (h.step hstep) hrest

/-- An engine that was made just now, with a timeline or a worker of its own. -/
theorem of_run {scheduler : Scheduler Service.Task} {inputs : List Input}
    (hfresh : scheduler = .timeline {} ∨ scheduler = .worker {})
    (hrun : Reception.run setup { service := Service.initial scheduler } inputs = some r) :
    Attended setup r := by
  have hinitial : Attended setup { service := Service.initial scheduler } := by
    refine ⟨Service.Inv.of_initial hfresh, rfl, ?_, ?_⟩
    · intro wait hwait
      cases hwait
    · intro thread hthread
      cases hthread
  exact hinitial.run hrun

end Attended
end Reception
end Lwm2mClient
