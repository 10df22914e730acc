import Lwm2mClient.Proofs.Service.Monitored

/-!
An engine in given surroundings: a store, servers and messages that answer every call sooner or
later, and nobody else. There the clock is moved as a virtual timeline moves it: each task that is
due is taken out at its time and comes to its end before the next one, and at last the clock
stands where it was to stand. A call to the surroundings never fails here, and its answer may
depend on all that has happened.
-/
namespace Lwm2mClient.Service

open Engine

structure Surroundings where
  /-- What a call is answered. -/
  answer : Client Task → List Event → (c : Call) → c.Answer
  /-- The gate of sessions when a call is about to be answered. -/
  gate : Client Task → List Event → Call → Gate

/-- An answer as the surroundings give it. -/
def Answer.of : (c : Call) → c.Answer → Answer
  | .objectIds, value => .ids value
  | .readObject _, value => .object value
  | .deleteInstance .., value => .code value
  | .send .., value => .response value
  | .awaitFinish _, value => .flag value
  | _, _ => .flag false

theorem Answer.to?_of {c : Call} (hc : isAsked c = true) (a : c.Answer) :
    (Answer.of c a).to? c = some a := by
  cases c <;> first | rfl | cases hc

/-- No operation is in progress, and none waits for its turn. -/
structure AtRest (s : Service) : Prop where
  idle : s.current = none
  alone : s.waiting = []

instance (s : Service) : Decidable (AtRest s) :=
  decidable_of_iff (s.current.isNone = true ∧ s.waiting.isEmpty = true) <| by
    rw [Option.isNone_iff_eq_none, List.isEmpty_iff]
    exact ⟨fun h => ⟨h.1, h.2⟩, fun h => ⟨h.idle, h.alone⟩⟩

section

variable (setup : Setup) (env : Surroundings)

/-- The operation in progress gets its answer; where there is none, the first that waits has its
turn. -/
def goOn (s : Service) : Option Service :=
  match s.current with
  | some ⟨_, .call c _⟩ =>
    (step setup s (.gate (env.gate s.client s.history c))).bind fun s =>
      step setup s (.answer (.of c (env.answer s.client s.history c)))
  | _ => step setup s (.turn 0)

/-- All operations come to their end. -/
inductive ComesToRest : Service → Service → Prop
  | rest {s : Service} (hs : AtRest s) : ComesToRest s s
  | goOn {s s₁ s' : Service} (hgoes : goOn setup env s = some s₁)
      (hrest : ComesToRest s₁ s') : ComesToRest s s'

/-- The clock is moved to a time, and some number of tasks are run on the way. -/
inductive Advances (target : Duration) : Service → Nat → Service → Prop
  | rest {s s' : Service} (hnone : step setup s (.take target) = none)
      (hsettle : step setup s (.settle target) = some s') : Advances target s 0 s'
  | task {s s₁ s₂ s' : Service} {n : Nat} (htake : step setup s (.take target) = some s₁)
      (hends : ComesToRest setup env s₁ s₂) (hrest : Advances target s₂ n s') :
      Advances target s (n + 1) s'

/-- The clock is moved on by some spans, one after the other. -/
inductive AdvancesBy : Service → List Duration → List Nat → Service → Prop
  | nil {s : Service} : AdvancesBy s [] [] s
  | cons {s s₁ s' : Service} {now span target : Duration} {spans : List Duration} {n : Nat}
      {counts : List Nat} (hnow : s.client.scheduler.now? = some now)
      (htarget : now.add? span = some target) (hfirst : Advances setup env target s n s₁)
      (hrest : AdvancesBy s₁ spans counts s') : AdvancesBy s (span :: spans) (n :: counts) s'

/-- Lets all operations come to their end, in a bounded number of answers. -/
def bringToRest : Nat → Service → Option Service
  | 0, _ => none
  | n + 1, s => if AtRest s then some s else (goOn setup env s).bind (bringToRest n)

end

variable {setup : Setup} {env : Surroundings} {s s' s₁ s₂ : Service} {target : Duration}

theorem goOn_of_atRest (hs : AtRest s) : goOn setup env s = none := by
  simp only [goOn, hs.idle, step, hs.alone, List.getElem?_nil]

theorem comesToRest_of_bringToRest {n : Nat} (h : bringToRest setup env n s = some s') :
    ComesToRest setup env s s' := by
  induction n generalizing s with
  | zero => cases h
  | succ n ih =>
    rw [bringToRest] at h
    split at h
    · rename_i hs
      cases h
      exact .rest hs
    · obtain ⟨mid, hmid, hrest⟩ := Option.bind_eq_some_iff.mp h
      exact .goOn hmid (ih hrest)

/-! ### What happens is determined by the surroundings -/

theorem ComesToRest.unique (h₁ : ComesToRest setup env s s₁)
    (h₂ : ComesToRest setup env s s₂) : s₁ = s₂ := by
  induction h₁ with
  | rest hs =>
    cases h₂ with
    | rest => rfl
    | goOn hgoes => cases (goOn_of_atRest hs).symm.trans hgoes
  | goOn hgoes hrest ih =>
    cases h₂ with
    | rest hs => cases (goOn_of_atRest hs).symm.trans hgoes
    | goOn hgoes' hrest' =>
      cases hgoes.symm.trans hgoes'
      exact ih hrest'

theorem Advances.unique {n₁ n₂ : Nat} (h₁ : Advances setup env target s n₁ s₁)
    (h₂ : Advances setup env target s n₂ s₂) : n₁ = n₂ ∧ s₁ = s₂ := by
  induction h₁ generalizing n₂ with
  | rest hnone hsettle =>
    cases h₂ with
    | rest hnone' hsettle' =>
      cases hsettle.symm.trans hsettle'
      exact ⟨rfl, rfl⟩
    | task htake => cases hnone.symm.trans htake
  | task htake hends hrest ih =>
    cases h₂ with
    | rest hnone => cases hnone.symm.trans htake
    | task htake' hends' hrest' =>
      cases htake.symm.trans htake'
      cases hends.unique hends'
      obtain ⟨rfl, rfl⟩ := ih hrest'
      exact ⟨rfl, rfl⟩

theorem AdvancesBy.unique {spans : List Duration} {counts₁ counts₂ : List Nat}
    (h₁ : AdvancesBy setup env s spans counts₁ s₁)
    (h₂ : AdvancesBy setup env s spans counts₂ s₂) : counts₁ = counts₂ ∧ s₁ = s₂ := by
  induction h₁ generalizing counts₂ with
  | nil =>
    cases h₂
    exact ⟨rfl, rfl⟩
  | cons hnow htarget hfirst hrest ih =>
    cases h₂ with
    | cons hnow' htarget' hfirst' hrest' =>
      cases hnow.symm.trans hnow'
      cases htarget.symm.trans htarget'
      obtain ⟨rfl, rfl⟩ := hfirst.unique hfirst'
      obtain ⟨rfl, rfl⟩ := ih hrest'
      exact ⟨rfl, rfl⟩

theorem goOn_extends (h : goOn setup env s = some s') :
    ∃ events, s'.history = events ++ s.history := by
  unfold goOn at h
  split at h
  · obtain ⟨mid, hgate, hanswer⟩ := Option.bind_eq_some_iff.mp h
    obtain ⟨events, hevents, -⟩ := step_extends hgate
    obtain ⟨more, hmore, -⟩ := step_extends hanswer
    exact ⟨more ++ events, by rw [hmore, hevents, List.append_assoc]⟩
  · obtain ⟨events, hevents, -⟩ := step_extends h
    exact ⟨events, hevents⟩

theorem ComesToRest.extends (h : ComesToRest setup env s s') :
    ∃ events, s'.history = events ++ s.history := by
  induction h with
  | rest => exact ⟨[], rfl⟩
  | goOn hgoes hrest ih =>
    obtain ⟨events, hevents⟩ := goOn_extends hgoes
    obtain ⟨more, hmore⟩ := ih
    exact ⟨more ++ events, by rw [hmore, hevents, List.append_assoc]⟩

theorem Advances.extends {n : Nat} (h : Advances setup env target s n s') :
    ∃ events, s'.history = events ++ s.history := by
  induction h with
  | rest hnone hsettle =>
    obtain ⟨events, hevents, -⟩ := step_extends hsettle
    exact ⟨events, hevents⟩
  | task htake hends hrest ih =>
    obtain ⟨first, hfirst, -⟩ := step_extends htake
    obtain ⟨events, hevents⟩ := hends.extends
    obtain ⟨more, hmore⟩ := ih
    exact ⟨more ++ (events ++ first),
      by rw [hmore, hevents, hfirst]; simp only [List.append_assoc]⟩

theorem AdvancesBy.extends {spans : List Duration} {counts : List Nat}
    (h : AdvancesBy setup env s spans counts s') :
    ∃ events, s'.history = events ++ s.history := by
  induction h with
  | nil => exact ⟨[], rfl⟩
  | cons hnow htarget hfirst hrest ih =>
    obtain ⟨events, hevents⟩ := hfirst.extends
    obtain ⟨more, hmore⟩ := ih
    exact ⟨more ++ events, by rw [hmore, hevents, List.append_assoc]⟩

/-! ### Monitored operations -/

/-- The answers of the surroundings move a monitor to where it sees the client again. -/
def Hears {σ : Type} (env : Surroundings) (m : Monitor σ)
    (sees : σ → Client Task → List Event → Prop) : Prop :=
  ∀ x client history c, sees x client history → m.permits x c → isAsked c = true →
    let seen := { client with gate := env.gate client history c }
    let a := env.answer seen history c
    ∃ x', m.moves x c a x' ∧ sees x' seen (.answered c a client.scheduler.clock :: history)

variable {σ : Type} {m : Monitor σ} {sees : σ → Client Task → List Event → Prop}
    {post : Bool → σ → Prop}

theorem goOn_of_isAsked {job : Job} {c : Call} {next : c.Answer → Program Bool}
    (hc : isAsked c = true) (hcurrent : s.current = some ⟨job, .call c next⟩) :
    goOn setup env s =
      let seen := { s.client with gate := env.gate s.client s.history c }
      let a := env.answer seen s.history c
      some (({ s with client := seen, current := none }.note
        (.answered c a s.client.scheduler.clock)).enter true job (next a)) := by
  simp only [goOn, hcurrent, step, Option.bind_some, Answer.to?_of hc, Option.map_some]

/-- A monitored thread that has nobody beside it comes to its end. -/
theorem Sees.comesToRest (hm : Sees m sees) (hears : Hears env m sees) (setup : Setup) (job : Job)
    {p : Program Bool} {x : σ} (hs : AtRest s) (hp : p.Keeps m post x)
    (hx : sees x s.client s.history) :
    ∃ result x' client history, sees x' client history ∧ post result x' ∧
      ComesToRest setup env (s.enter true job (p >>= job.close))
        (depart { client, leaving := s.leaving, history := .ended job result :: history }
          ⟨job, job.coda result⟩) := by
  induction p generalizing s x with
  | done result =>
    have hend : s.enter true job (.done result >>= job.close) =
        depart { client := s.client, leaving := s.leaving,
                 history := .ended job result :: s.history }
          ⟨job, job.coda result⟩ := by
      rw [enter_of_finished rfl rfl, ← hs.idle, ← hs.alone]
      rfl
    rw [hend]
    refine ⟨result, x, s.client, s.history, hx, hp, .rest ?_⟩
    rw [depart_eq]
    exact ⟨rfl, rfl⟩
  | call c next ih =>
    obtain ⟨hacquire, hrelease⟩ := hm.ofTurn x c hp.1
    cases hreply : s.client.answer? .work c with
    | some reply =>
      obtain ⟨x₁, hmove, hx₁⟩ := hm.reply x s.client s.history c reply hx hp.1 hreply
      rw [Program.call_bind, enter_of_reply hreply, report_eq]
      refine ih reply.answer (s := _) ⟨hs.idle, hs.alone⟩ (hp.2 reply.answer x₁ hmove) ?_
      rw [report_history]
      exact hx₁
    | none =>
      have hasked := isAsked_of_none hacquire hrelease hreply
      obtain ⟨x₁, hmove, hx₁⟩ := hears x s.client s.history c hx hp.1 hasked
      rw [Program.call_bind, enter_of_isAsked hasked]
      let seen := { s.client with gate := env.gate s.client s.history c }
      let answered : Service :=
        { s with client := seen, current := none }.note
          (.answered c (env.answer seen s.history c) s.client.scheduler.clock)
      obtain ⟨result, x', client, history, hx', hpost, hends⟩ :=
        ih (env.answer seen s.history c) (s := answered) ⟨rfl, hs.alone⟩ (hp.2 _ x₁ hmove) hx₁
      exact ⟨result, x', client, history, hx', hpost, .goOn (goOn_of_isAsked hasked rfl) hends⟩

theorem launch_of_pending {job : Job} (hjob : job.program setup = job.pending setup)
    (s : Service) :
    launch setup s job =
      { s with
        waiting := s.waiting ++ [⟨job, job.pending setup⟩], history :=
          .began job :: s.history } := by
  unfold launch
  rw [hjob]
  rfl

/-- A monitored job that begins with nobody beside it has its turn and comes to its end. -/
theorem Sees.comesToRest_of_launch (hm : Sees m sees) (hears : Hears env m sees) (job : Job)
    {x : σ} (hjob : job.program setup = job.pending setup) (hs : AtRest s)
    (hp : (job.body setup).Keeps m post x) (hx : sees x s.client (.began job :: s.history)) :
    ∃ result x' client history, sees x' client history ∧ post result x' ∧
      ComesToRest setup env (launch setup s job)
        (depart { client, leaving := s.leaving, history := .ended job result :: history }
          ⟨job, job.coda result⟩) := by
  obtain ⟨result, x', client, history, hx', hpost, hends⟩ :=
    hm.comesToRest hears setup job (s := s.note (.began job)) ⟨hs.idle, hs.alone⟩ hp hx
  refine ⟨result, x', client, history, hx', hpost, .goOn ?_ hends⟩
  obtain ⟨client, current, waiting, leaving, history⟩ := s
  obtain ⟨rfl, rfl⟩ : current = none ∧ waiting = [] := ⟨hs.idle, hs.alone⟩
  rw [launch_of_pending hjob]
  rfl

end Lwm2mClient.Service
