import Lwm2mClient.Proofs.Service.Jobs

/-!
The invariant of an engine in service. While no operation is in progress the scene is resting and
the renewal is kept; the operation in progress ensures that it will be so again, however it is
answered and wherever it is abandoned; and the operations that wait have done nothing yet.
-/
namespace Lwm2mClient.Service

open Net Engine

/-- The tasks that were taken out for some threads. -/
def inHand (threads : List Thread) : List (Timeline.Entry Task) :=
  threads.filterMap fun thread => thread.job.taken?

theorem inHand_append (threads : List Thread) (thread : Thread) :
    inHand (threads ++ [thread]) = inHand threads ++ thread.job.taken?.toList := by
  unfold inHand
  rw [List.filterMap_append]
  cases htaken : thread.job.taken? <;> simp [htaken]

/-- A task in hand of somebody is in hand of one thread or of another. -/
theorem mem_inHand_eraseIdx {threads : List Thread} {index : Nat} {thread : Thread}
    {e : Timeline.Entry Task} (hindex : threads[index]? = some thread) (he : e ∈ inHand threads) :
    e ∈ thread.job.taken?.toList ++ inHand (threads.eraseIdx index) := by
  obtain ⟨other, hother, htaken⟩ := List.mem_filterMap.mp he
  obtain ⟨index', hindex'⟩ := List.getElem?_of_mem hother
  by_cases heq : index' = index
  · rw [heq, hindex] at hindex'
    cases hindex'
    rw [htaken]
    exact List.mem_append_left _ (List.mem_singleton.mpr rfl)
  · have hkept : other ∈ threads.eraseIdx index :=
      List.mem_eraseIdx_iff_getElem?.mpr ⟨index', heq, hindex'⟩
    exact List.mem_append_right _ (List.mem_filterMap.mpr ⟨other, hkept, htaken⟩)

/-- What the operation in progress can see of a service. -/
def scene (setup : Setup) (s : Service) : Scene :=
  ⟨s.client, inHand s.waiting, ledger setup.hosts s.history⟩

/-- A thread in the middle of its work, which will end as its job may end. -/
def Busy (setup : Setup) (thread : Thread) (s : Scene) : Prop :=
  ∃ c next, isAsked c ∧ thread.rest = .call c (fun a => next a >>= thread.job.close) ∧
    Ensures setup.hosts Paused (.call c next) (Closes setup thread.job) s

structure Inv (setup : Setup) (s : Service) : Prop where
  waiting : ∀ thread ∈ s.waiting, thread.rest = thread.job.pending setup
  resting : s.current = none → Kept setup.settings .resting (scene setup s)
  busy : ∀ thread, s.current = some thread → Busy setup thread (scene setup s)

variable {setup : Setup}

theorem report_eq (s : Service) (lines : List Log.Line) :
    s.report lines = { s with history := (s.report lines).history } := by
  unfold report
  induction lines generalizing s with
  | nil => rfl
  | cons line rest ih => exact ih (s.note (.reported line))

theorem ledger_report (hosts : Hosts) (s : Service) (lines : List Log.Line) :
    ledger hosts (s.report lines).history =
      lines.foldl (fun l line => l.note hosts (.reported line)) (ledger hosts s.history) := by
  unfold report
  induction lines generalizing s with
  | nil => rfl
  | cons line rest ih => exact ih (s.note (.reported line))

theorem Ensures.drift {α : Type} {hosts : Hosts} {wait : Scene → Prop} {c : Call}
    {next : c.Answer → Program α} {post : α → Scene → Prop} {s s' : Scene} (hc : isAsked c)
    (h : Ensures hosts wait (.call c next) post s) (hdrift : s.Drift s') :
    Ensures hosts wait (.call c next) post s' := by
  simp only [Ensures, answer?_of_isAsked hc] at h ⊢
  refine ⟨hc, ?_⟩
  intro s'' hdrift'
  exact h.2 s'' (hdrift.trans hdrift')

/-- What the surroundings do by themselves keeps the invariant. -/
theorem Inv.drift {s s' : Service} (h : Inv setup s) (hcurrent : s'.current = s.current)
    (hwaiting : ∀ thread ∈ s'.waiting, thread.rest = thread.job.pending setup)
    (hdrift : (scene setup s).Drift (scene setup s')) : Inv setup s' := by
  constructor
  · exact hwaiting
  · intro hnone
    have hs := h.resting (hcurrent ▸ hnone)
    exact (Kept.steady setup.settings .resting).drift _ _ hs hdrift
  · intro thread hthread
    obtain ⟨c, next, hc, hrest, hensures⟩ := h.busy thread (hcurrent ▸ hthread)
    exact ⟨c, next, hc, hrest, hensures.drift hc hdrift⟩

/-- Whatever others do to the gate keeps the invariant. -/
theorem Inv.gate {s : Service} (h : Inv setup s) (gate : Gate) :
    Inv setup { s with client := { s.client with gate := gate } } :=
  h.drift rfl h.waiting (Scene.Drift.of_gate (scene setup s) gate)

/-- All that changes when a thread departs is who has not returned. -/
theorem depart_eq (s : Service) (thread : Thread) :
    s.depart thread = { s with leaving := (s.depart thread).leaving } := by
  unfold depart
  split <;> rfl

theorem enter_of_outcome {s : Service} {holds : Bool} {job : Job} {p : Program Bool}
    {result : Bool} (h : outcome? (proceed holds p s.client).rest = some result) :
    s.enter holds job p =
      (({ s with client := (proceed holds p s.client).client }.report
        (proceed holds p s.client).lines).note (.ended job result)).depart
          ⟨job, (proceed holds p s.client).rest⟩ := by
  unfold enter
  simp only [h]

theorem enter_of_done {s : Service} {holds : Bool} {job : Job} {p : Program Bool} {result : Bool}
    (h : (proceed holds p s.client).rest = .done result) :
    s.enter holds job p =
      ({ s with client := (proceed holds p s.client).client }.report
        (proceed holds p s.client).lines).note (.ended job result) := by
  have houtcome : outcome? (proceed holds p s.client).rest = some result := by
    rw [h]
    rfl
  rw [enter_of_outcome houtcome, h]
  rfl

theorem enter_of_none {s : Service} {holds : Bool} {job : Job} {p : Program Bool}
    (h : outcome? (proceed holds p s.client).rest = none) :
    s.enter holds job p =
      let s' := { s with client := (proceed holds p s.client).client }.report
        (proceed holds p s.client).lines
      if (proceed holds p s.client).holds then
        { s' with current := some ⟨job, (proceed holds p s.client).rest⟩ }
      else { s' with waiting := s'.waiting ++ [⟨job, (proceed holds p s.client).rest⟩] } := by
  unfold enter
  simp only [h]

theorem enter_of_call {s : Service} {holds : Bool} {job : Job} {p : Program Bool} {c : Call}
    {next : c.Answer → Program Bool} (h : (proceed holds p s.client).rest = .call c next)
    (hc : c ≠ .shutDownTimeline) :
    s.enter holds job p =
      let s' := { s with client := (proceed holds p s.client).client }.report
        (proceed holds p s.client).lines
      if (proceed holds p s.client).holds then { s' with current := some ⟨job, .call c next⟩ }
      else { s' with waiting := s'.waiting ++ [⟨job, .call c next⟩] } := by
  have hnone : outcome? (proceed holds p s.client).rest = none := by
    rw [h]
    cases c <;> first | rfl | exact absurd rfl hc
  rw [enter_of_none hnone, h]

/-- A thread goes on with its work until it waits again or ends. -/
theorem Inv.enter {s : Service} {job : Job} {p : Program Bool} (hcurrent : s.current = none)
    (hwaiting : ∀ thread ∈ s.waiting, thread.rest = thread.job.pending setup)
    (h : Ensures setup.hosts Paused p (Closes setup job) (scene setup s)) :
    Inv setup (s.enter true job (p >>= job.close)) := by
  obtain ⟨hholds, hensures, hasked⟩ := h.proceed
  change (proceed true p s.client).holds = true at hholds
  change Ensures setup.hosts _ (proceed true p s.client).rest _
    (Scene.report setup.hosts _ (proceed true p s.client).lines) at hensures
  cases hrest : (proceed true p s.client).rest with
  | done result =>
    have hwhole : proceed true (p >>= job.close) s.client =
        { client := (proceed true p s.client).client
          lines := (proceed true p s.client).lines, holds := false, rest :=
            job.coda result } := by
      rw [proceed_bind _ hholds, hrest]
      dsimp only
      rw [Job.proceed_close, List.append_nil]
    rw [hrest] at hensures
    have hover : outcome? (proceed true (p >>= job.close) s.client).rest = some result := by
      rw [hwhole]
      exact job.outcome?_coda result
    rw [enter_of_outcome hover, hwhole, depart_eq, report_eq]
    constructor
    · exact hwaiting
    · intro _
      rw [scene, note, ledger, ledger_report]
      exact hensures
    · intro thread hthread
      cases hcurrent.symm.trans hthread
  | call c next =>
    have hwhole : proceed true (p >>= job.close) s.client =
        { client := (proceed true p s.client).client, lines := (proceed true p s.client).lines
          holds := true, rest := .call c fun a => next a >>= job.close } := by
      rw [proceed_bind _ hholds, hrest]
      rfl
    rw [hrest] at hensures
    have hc : c ≠ .shutDownTimeline := by
      rintro rfl
      cases hasked _ next hrest
    rw [enter_of_call (by rw [hwhole]) hc, hwhole, if_pos rfl, report_eq]
    constructor
    · exact hwaiting
    · intro hnone
      cases hnone
    · intro thread hthread
      cases hthread
      refine ⟨c, next, hasked c next hrest, rfl, ?_⟩
      rw [scene, ledger_report]
      exact hensures

/-! ### Jobs that begin -/

/-- A job begins and comes to where it waits for its turn. Its task, if it has one, was taken
out. -/
theorem Inv.launch {s₀ s : Service} {job : Job} (h : Inv setup s₀)
    (hcurrent : s.current = s₀.current) (hwaiting : s.waiting = s₀.waiting)
    (hdrift : (scene setup s₀).Drift
      { scene setup s with hand := (scene setup s).hand ++ job.taken?.toList }) :
    Inv setup (Service.launch setup s job) := by
  let s₁ := s.note (.began job)
  obtain ⟨gate, lines, hcalm, hproceed | ⟨rfl, hproceed⟩⟩ :=
    Job.proceed_program setup job s₁.client
  · have hlaunch : Service.launch setup s job =
        { { s₁ with client := { s₁.client with gate := gate } }.report lines with
          waiting := s.waiting ++ [⟨job, job.pending setup⟩] } := by
      change s₁.enter false job (job.program setup) = _
      have hrest : (proceed false (job.program setup) s₁.client).rest =
          .call .acquire fun _ => job.body setup >>= job.close := by
        rw [hproceed]
        rfl
      rw [enter_of_call hrest (by simp), hproceed, if_neg Bool.false_ne_true, report_eq]
      rfl
    rw [hlaunch, report_eq]
    refine h.drift ?_ ?_ ?_
    · exact hcurrent
    · intro thread hthread
      rcases List.mem_append.mp hthread with hold | hnew
      · exact h.waiting thread (hwaiting ▸ hold)
      · rw [List.mem_singleton.mp hnew]
    · have hgate := Scene.Drift.of_gate
        { scene setup s with hand := (scene setup s).hand ++ job.taken?.toList } gate
      apply hdrift.trans
      unfold scene
      rw [inHand_append, ledger_report, foldl_note_of_calm hcalm]
      exact hgate
  · have hlaunch : Service.launch setup s (.operation .bootstrap) =
        ({ s₁ with client := { s₁.client with gate := gate } }.report lines).note
          (.ended (.operation .bootstrap) false) := by
      change s₁.enter false (.operation .bootstrap) ((Job.operation .bootstrap).program setup) = _
      rw [enter_of_done (by rw [hproceed]), hproceed]
    rw [hlaunch, report_eq]
    refine h.drift ?_ ?_ ?_
    · exact hcurrent
    · intro thread hthread
      exact h.waiting thread (hwaiting ▸ hthread)
    · have hnothing : (scene setup s).hand ++ (Job.operation .bootstrap).taken?.toList =
          (scene setup s).hand := List.append_nil _
      rw [hnothing] at hdrift
      have hgate := Scene.Drift.of_gate (scene setup s) gate
      apply hdrift.trans
      unfold scene note
      rw [ledger, ledger_report, foldl_note_of_calm hcalm, Ledger.note_ended]
      exact hgate

end Lwm2mClient.Service
