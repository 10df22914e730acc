import Lwm2mClient.Proofs.Service.Bodies
import Lwm2mClient.Proofs.Service.Coherence
import Lwm2mClient.Proofs.Service.Provenance
import Lwm2mClient.Proofs.Sessions.Attempts
import Lwm2mClient.Proofs.Sessions.Monitoring

/-!
Shutting an engine down while an operation is in progress. The session is cancelled at once, by a
thread that does not wait for the operation. An operation bootstraps at most once, so if its
session is open at that moment it sends no Bootstrap request any more, and it waits for no end of
a session any longer. A session that the operation opens later is not cut short.
-/
namespace Lwm2mClient

open Net Engine Program

/-- How far an operation has come with its bootstrap. -/
inductive Leg where
  | before
  | opened
  | requested
  | awaited
  | closed
  /-- The wait was in vain. -/
  | lapsed
  /-- The session was closed after a wait in vain. -/
  | abandoned

namespace Leg

def rank : Leg → Nat
  | before => 0
  | opened => 1
  | requested => 2
  | awaited => 3
  | closed => 4
  | lapsed => 5
  | abandoned => 6

/-- Whether an operation has a session that it has not closed yet. -/
def isUnderway : Leg → Bool
  | opened | requested | awaited | lapsed => true
  | before | closed | abandoned => false

/-- Whether an operation has no session and may still have something to do. -/
def isFree : Leg → Bool
  | before | closed => true
  | opened | requested | awaited | lapsed | abandoned => false

def close : Leg → Leg
  | lapsed | abandoned => abandoned
  | before | opened | requested | awaited | closed => closed

variable {x : Leg}

theorem rank_of_underway (h : x.isUnderway = true) : 1 ≤ x.rank := by
  revert h
  cases x <;> decide

theorem eq_closed_of_free (h : x.isFree = true) (hrank : 1 ≤ x.rank) : x = .closed := by
  cases x with
  | before => cases hrank
  | closed => rfl
  | _ => cases h

theorem rank_le_close (x : Leg) : x.rank ≤ x.close.rank := by
  cases x <;> decide

theorem not_underway_close (x : Leg) : x.close.isUnderway = false := by
  cases x <;> rfl

end Leg

/-- An operation opens a session at most once. It sends one Bootstrap request in it and nothing
else, it waits at most once for the end, and it closes the session before it goes on. After a wait
in vain it has nothing more to ask. -/
def singleAttempt : Monitor Leg where
  permits x
    | .acquire | .release => False
    | .openSession _ => x = .before
    | .send _ _ (.bootstrap _) _ => x = .opened
    | .awaitFinish _ => x = .requested
    | .objectIds | .readObject _ | .deleteInstance .. | .send .. => x.isFree = true
    | _ => True
  moves x c a x' :=
    match c with
    | .openSession _ => x' = if a then .opened else x
    | .send _ _ (.bootstrap _) _ => x' = .requested
    | .awaitFinish _ => x' = if a then .awaited else .lapsed
    | .closeSession => x' = x.close
    | _ => x' = x

namespace Leg

variable {α : Type} {setup : Setup} {x : Leg}

/-- An operation without a session may manage the registration. -/
theorem manages {c : Call} (hc : c.isManagement) (hx : x.isFree = true) :
    singleAttempt.permits x c ∧ ∀ a x', singleAttempt.moves x c a x' → x' = x := by
  cases c with
  | send peer secure request timeout =>
    cases request with
    | bootstrap endpoint => exact absurd hc id
    | _ => exact ⟨hx, fun _ _ hmove => hmove⟩
  | objectIds => exact ⟨hx, fun _ _ hmove => hmove⟩
  | readObject object => exact ⟨hx, fun _ _ hmove => hmove⟩
  | log | registration | setRegistration | schedule | cancelTask =>
    exact ⟨trivial, fun _ _ hmove => hmove⟩
  | _ => exact absurd hc id

theorem keeps_managing {p : Program α} {mid : α → Prop} {post : α → Leg → Prop}
    (hp : p.Asks Call.isManagement mid) (hx : x.isFree = true) (h : ∀ v, post v x) :
    p.Keeps singleAttempt post x := by
  exact Keeps.of_still hp (fun c hc => manages hc hx) h

/-- Upkeep is possible at any time. -/
theorem keeps_upkeep {p : Program α} {mid : α → Prop} {post : α → Leg → Prop}
    (hp : p.Asks Call.isUpkeep mid) (h : ∀ v, post v x) : p.Keeps singleAttempt post x := by
  refine Keeps.of_still hp (fun c hc => ?_) h
  cases c with
  | log | registration | setRegistration | schedule | cancelTask =>
    exact ⟨trivial, fun _ _ hmove => hmove⟩
  | _ => exact absurd hc id

theorem keeps_line {line : Log.Line} {post : Unit → Leg → Prop} (h : post () x) :
    (log line).Keeps singleAttempt post x := by
  refine Keeps.perform trivial ?_
  rintro ⟨⟩ x' rfl
  exact h

theorem keeps_awaitBootstrap {answer : Option Response} {post : Bool → Leg → Prop}
    (hfinished : post true .awaited) (hlapsed : post false .lapsed)
    (hrefused : post false .requested) :
    (awaitBootstrap setup answer).Keeps singleAttempt post .requested := by
  refine Keeps.awaitBootstrap (keeps_line hrefused) (fun _ => keeps_line hrefused)
    (keeps_line (Keeps.perform rfl ?_))
  rintro finished x rfl
  cases finished with
  | true => exact hfinished
  | false => exact keeps_line hlapsed

theorem keeps_concludeSession_false :
    (concludeSession setup false).Keeps singleAttempt (fun _ x' => x'.isUnderway = false) x := by
  refine Keeps.bind (Keeps.perform trivial ?_)
  rintro ⟨⟩ x' rfl
  exact Keeps.bind (keeps_upkeep forget_upkeep fun _ => not_underway_close x)

theorem keeps_bootstrapNow :
    (bootstrapNow setup).Keeps singleAttempt (fun _ x => x.isUnderway = false) .before := by
  refine Keeps.bind
    (keeps_managing (reads_manages (requireBootstrap_reads setup)) rfl fun found => ?_)
  cases found with
  | error e => exact Keeps.bind (keeps_line rfl)
  | ok found =>
    refine Keeps.bind (Keeps.perform rfl ?_)
    rintro opened x rfl
    cases opened with
    | false => exact Keeps.bind (keeps_line rfl)
    | true =>
      refine Keeps.bind (keeps_upkeep (fire_upkeep .bootstrap) fun _ => ?_)
      refine Keeps.bind (Keeps.perform rfl ?_)
      rintro answer x rfl
      refine Keeps.bind (keeps_awaitBootstrap (Keeps.bind (Keeps.perform trivial ?_))
        keeps_concludeSession_false keeps_concludeSession_false)
      rintro ⟨⟩ x' rfl
      exact Keeps.bind (keeps_line (keeps_managing (registerNow_manages setup) rfl fun _ => rfl))

theorem suits (setup : Setup) :
    Service.Suits setup singleAttempt (fun x => x = .before) fun x => x.isUnderway = false where
  manages c x hc hx := by
    obtain ⟨hpermits, hmoves⟩ := manages hc (hx ▸ rfl : x.isFree = true)
    exact ⟨hpermits, fun a x' hmove => (hmoves a x' hmove).trans hx⟩
  bootstraps x hx := hx ▸ keeps_bootstrapNow
  weaken x hx := hx ▸ rfl

/-- A session is open only while an operation has one. -/
def IsAt (x : Leg) (client : Client Service.Task) (_history : List Service.Event) : Prop :=
  client.gate.isActive = true → x.isUnderway = true

end Leg

/-! ### A vacant gate -/

namespace Gate

/-- There is no session, and no end of one that could be waited for. -/
structure Vacant (g : Gate) : Prop where
  session : g.session = .closed
  unclaimed : g.unclaimed = none

variable {g g' : Gate}

theorem vacant_close (h : g.isActive = true) : g.close.gate.Vacant := by
  unfold close
  split
  · rename_i hclosed
    exact ⟨hclosed, rfl⟩
  · exact ⟨rfl, rfl⟩
  · rename_i hbroken
    simp only [isActive, hbroken] at h
    cases h

theorem Vacant.isActive (h : g.Vacant) : g.isActive = false := by
  simp only [Gate.isActive, h.session]

theorem Vacant.close (h : g.Vacant) : g.close.gate.Vacant := by
  rw [close_gate (by simp [h.session])]
  exact ⟨rfl, rfl⟩

/-- No message and no wait fills a vacant gate. -/
theorem Vacant.moves (h : g.Vacant) (hmoves : g.Moves g') : g'.Vacant := by
  cases hmoves with
  | stay => exact h
  | receive m =>
    cases m with
    | finish sender =>
      have hrefused : g.letIn sender = .error .noPendingSession := by
        simp only [letIn, h.session]
      rw [receive, (finish_of_refused hrefused).2]
      exact h
    | delete sender path => exact h
    | cancel => exact h.close
  | claim =>
    rw [claim, h.unclaimed]
    exact h
  | release number => exact ⟨h.session, h.unclaimed⟩

end Gate

namespace Service

theorem attempt_sees : Sees singleAttempt Leg.IsAt where
  ofTurn x c hc := by
    constructor <;> rintro rfl <;> exact hc
  reply x client history c reply hx hc hreply := by
    cases c with
    | openSession peer =>
      cases hreply
      refine ⟨_, rfl, fun hactive => ?_⟩
      have hshut : client.gate.isActive ≠ true := by
        intro hopen
        rw [show x = .before from hc] at hx
        cases hx hopen
      rw [if_pos (Gate.result_of_isActive hshut hactive)]
      rfl
    | closeSession =>
      cases hreply
      refine ⟨_, rfl, fun hactive => ?_⟩
      cases hactive.symm.trans (Gate.isActive_close client.gate)
    | log | registration | setRegistration | sessionActive | schedule | cancelTask
        | shutDownTimeline =>
      cases hreply
      exact ⟨x, rfl, hx⟩
    | _ => cases hreply

theorem attempt_serves (setup : Setup) :
    Serves setup singleAttempt Leg.IsAt (fun _ _ x => x.isUnderway = false)
      fun client _ => client.gate.isActive = false where
  replies := attempt_sees
  begins job client history h :=
    ⟨.before, fun hactive => (by cases h.symm.trans hactive), (Leg.suits setup).body job rfl⟩
  hears x client history c a clock hx hc hasked := by
    cases c with
    | send peer secure request timeout =>
      cases request with
      | bootstrap endpoint => exact ⟨.requested, rfl, fun _ => rfl⟩
      | _ => exact ⟨x, rfl, hx⟩
    | awaitFinish timeout => exact ⟨_, rfl, fun _ => by cases a <;> rfl⟩
    | objectIds | readObject | deleteInstance => exact ⟨x, rfl, hx⟩
    | _ => cases hasked
  ends job result x client history hx hpost := by
    exact Bool.eq_false_iff.mpr fun hactive => by cases hpost.symm.trans (hx hactive)

/-- The session of an operation was closed for it, and it has come so far since. -/
def CutAt (n : Nat) (x : Leg) (client : Client Task) (_history : List Event) : Prop :=
  client.gate.Vacant ∧ n ≤ x.rank

/-- An operation whose session was closed for it opens no other. -/
theorem cut_sees {n : Nat} (hn : 1 ≤ n) : Sees singleAttempt (CutAt n) where
  ofTurn := attempt_sees.ofTurn
  reply x client history c reply hx hc hreply := by
    cases c with
    | openSession peer =>
      obtain ⟨-, hrank⟩ := hx
      rw [show x = .before from hc] at hrank
      exact absurd (Nat.le_trans hn hrank) (by decide)
    | closeSession =>
      cases hreply
      exact ⟨_, rfl, hx.1.close, Nat.le_trans hx.2 x.rank_le_close⟩
    | log | registration | setRegistration | sessionActive | schedule | cancelTask
        | shutDownTimeline =>
      cases hreply
      exact ⟨x, rfl, hx⟩
    | _ => cases hreply

/-- What a service keeps once the session of the operation in progress was closed for it. -/
abbrev Cut (n : Nat) (s : Service) : Prop :=
  Monitored singleAttempt (CutAt n) (fun _ _ _ => True) (fun client _ => client.gate.Vacant) s

variable {setup : Setup} {s s' : Service} {n : Nat}

theorem Cut.vacant (h : Cut n s) : s.client.gate.Vacant := by
  cases hcurrent : s.current with
  | none => exact h.idle hcurrent
  | some thread =>
    obtain ⟨c, next, x, -, -, hx, -⟩ := h.busy thread hcurrent
    exact hx.1

theorem Cut.aside (h : Cut n s) (hcurrent : s'.current = s.current)
    (hgate : s'.client.gate.Vacant) : Cut n s' :=
  Monitored.aside h hcurrent (fun _ => hgate) fun _ hx => ⟨hgate, hx.2⟩

/-- An operation that has waited in vain has ended. -/
theorem Cut.current_eq_none (h : Cut Leg.lapsed.rank s) : s.current = none := by
  cases hcurrent : s.current with
  | none => rfl
  | some thread =>
    obtain ⟨c, next, x, hasked, -, ⟨-, hrank⟩, hpermits, -⟩ := h.busy thread hcurrent
    have hlate : x ≠ .opened ∧ x ≠ .requested ∧ x.isFree ≠ true := by
      refine ⟨?_, ?_, fun hfree => ?_⟩
      · rintro rfl
        exact absurd hrank (by decide)
      · rintro rfl
        exact absurd hrank (by decide)
      · rw [Leg.eq_closed_of_free hfree (Nat.le_trans (by decide) hrank)] at hrank
        exact absurd hrank (by decide)
    cases c with
    | send peer secure request timeout =>
      cases request with
      | bootstrap endpoint => exact absurd hpermits hlate.1
      | _ => exact absurd hpermits hlate.2.2
    | awaitFinish timeout => exact absurd hpermits hlate.2.1
    | objectIds | readObject | deleteInstance => exact absurd hpermits hlate.2.2
    | _ => cases hasked

/-- With an answer an operation has its Bootstrap request behind it, and its wait if that is what
is over. -/
theorem Cut.answer (h : Cut n s) (hn : 1 ≤ n) {answer : Answer}
    (hstep : step setup s (.answer answer) = some s') :
    ∃ n', 2 ≤ n' ∧ Cut n' s' ∧
      ∀ job timeout next, s.current = some ⟨job, .call (.awaitFinish timeout) next⟩ →
        3 ≤ n' ∧ (answer = .flag false → n' = Leg.lapsed.rank) := by
  obtain ⟨job, c, next, a, hcurrent, ha, rfl⟩ := step_answer hstep
  obtain ⟨c', next', x, hasked, hrest, ⟨hvacant, hrank⟩, hpermits, hkeeps⟩ := h.busy _ hcurrent
  dsimp only at hrest
  cases hrest
  have hmoves : ∃ x', singleAttempt.moves x c a x' ∧ 2 ≤ x'.rank ∧
      ∀ timeout, c = .awaitFinish timeout →
        3 ≤ x'.rank ∧ (answer = .flag false → x'.rank = Leg.lapsed.rank) := by
    have hclosed : x.isFree = true → 2 ≤ x.rank := fun hx => by
      rw [Leg.eq_closed_of_free hx (Nat.le_trans hn hrank)]
      decide
    cases c with
    | send peer secure request timeout =>
      cases request with
      | bootstrap endpoint => exact ⟨.requested, rfl, by decide, nofun⟩
      | _ => exact ⟨x, rfl, hclosed hpermits, nofun⟩
    | awaitFinish timeout =>
      refine ⟨_, rfl, ?_, fun _ _ => ⟨?_, ?_⟩⟩
      · cases a <;> decide
      · cases a <;> decide
      · rintro rfl
        cases ha
        rfl
    | objectIds | readObject | deleteInstance => exact ⟨x, rfl, hclosed hpermits, nofun⟩
    | _ => cases hasked
  obtain ⟨x', hmove, hlate, hwaited⟩ := hmoves
  let answered : Service :=
    { s with current := none }.note (.answered c a s.client.scheduler.clock)
  have hx' : CutAt x'.rank x' answered.client answered.history := ⟨hvacant, Nat.le_refl _⟩
  refine ⟨x'.rank, hlate, ?_, ?_⟩
  · let post : Job → Bool → Leg → Prop := fun _ _ _ => True
    have hrest : (next' a).Keeps singleAttempt (post job) x' := hkeeps a x' hmove
    rcases (cut_sees (Nat.le_of_succ_le hlate)).enter (s := answered) rfl hrest hx' with
      ⟨hnone, result, x'', history, hx'', -, -⟩ | ⟨thread, hthread, hfollowed⟩
    · exact ⟨fun _ => hx''.1, fun _ hthread => absurd (hnone.symm.trans hthread) (by simp)⟩
    · refine ⟨fun hnone => absurd (hthread.symm.trans hnone) (by simp),
        fun thread' hthread' => ?_⟩
      cases hthread.symm.trans hthread'
      exact hfollowed
  · intro job' timeout next'' hcurrent'
    cases hcurrent.symm.trans hcurrent'
    exact hwaited timeout rfl

end Service

/-! ### Shutting down -/

namespace Reception

variable {setup : Setup} {r r' r'' : Reception} {inputs more : List Input}

theorem run_append (setup : Setup) (r : Reception) (inputs more : List Input) :
    run setup r (inputs ++ more) = (run setup r inputs).bind fun mid => run setup mid more := by
  induction inputs generalizing r with
  | nil => rfl
  | cons input rest ih =>
    rw [List.cons_append, run, run, Option.bind_assoc]
    exact Option.bind_congr fun mid _ => ih mid

theorem unfailing_of_run (hrun : run setup r inputs = some r')
    (hunfailing : Service.Unfailing r'.service.history) :
    Service.Unfailing r.service.history := by
  induction inputs generalizing r with
  | nil =>
    cases hrun
    exact hunfailing
  | cons input rest ih =>
    obtain ⟨mid, hmid, hrest⟩ := Option.bind_eq_some_iff.mp hrun
    exact unfailing_of_step hmid (ih hrest)

/-- The operation in progress goes on without its session. Unless it asks for the same as before,
it has its Bootstrap request behind it. -/
def CutShort (r r' : Reception) : Prop :=
  ∃ n, 1 ≤ n ∧ (n < 2 → r'.service.current = r.service.current) ∧ r'.service.Cut n

namespace CutShort

theorem step {input : Input} (h : CutShort r r')
    (hstep : Reception.step setup r' input = some r'')
    (hturn : ∀ index, input ≠ .service (.turn index)) : CutShort r r'' := by
  obtain ⟨n, hn, hsame, hcut⟩ := h
  obtain ⟨gate, hgate, hsteps⟩ := step_service hstep
  have hvacant : gate.Vacant := hcut.vacant.moves hgate
  have hmoved : Service.Cut n (r'.withGate gate).service := hcut.aside rfl hvacant
  rcases hsteps with hservice | ⟨own, hown, hturns, hservice⟩
  · rw [CutShort, hservice]
    exact ⟨n, hn, hsame, hmoved⟩
  · cases own with
    | turn index => exact absurd (hturns index rfl) (hturn index)
    | gate gate' => exact absurd rfl (hown gate')
    | answer answer =>
      obtain ⟨n', hn', hcut', -⟩ := hmoved.answer hn hservice
      exact ⟨n', Nat.le_of_succ_le hn', fun hlt => absurd hlt (Nat.not_lt_of_le hn'), hcut'⟩
    | fail =>
      obtain ⟨job, c, next, -, -, hfailed⟩ := Service.step_fail hservice
      refine ⟨2, by decide, fun hlt => absurd hlt (by decide), ?_⟩
      rw [hfailed]
      exact ⟨fun _ => hvacant, fun thread hthread => by cases hthread⟩
    | operate operation =>
      have haside := Service.step_aside hservice rfl
      refine ⟨n, hn, fun hlt => haside.current.trans (hsame hlt), hmoved.aside haside.current ?_⟩
      rw [haside.gate]
      cases operation with
      | shutdown => exact hvacant.close
      | _ => exact hvacant
    | _ =>
      have haside := Service.step_aside hservice rfl
      refine ⟨n, hn, fun hlt => haside.current.trans (hsame hlt), hmoved.aside haside.current ?_⟩
      rw [haside.gate]
      exact hvacant

theorem run (h : CutShort r r') (hrun : Reception.run setup r' inputs = some r'')
    (hturn : ∀ index, .service (.turn index) ∉ inputs) : CutShort r r'' := by
  induction inputs generalizing r' with
  | nil =>
    cases hrun
    exact h
  | cons input rest ih =>
    obtain ⟨mid, hmid, hrest⟩ := Option.bind_eq_some_iff.mp hrun
    refine ih (h.step hmid fun index heq => ?_) hrest fun index hmem => ?_
    · exact hturn index (heq ▸ List.mem_cons_self)
    · exact hturn index (List.mem_cons_of_mem input hmem)

/-- A Bootstrap request that is on its way was sent before. -/
theorem current_of_bootstrapPeer {address : SocketAddress} (h : CutShort r r')
    (hsent : r'.bootstrapPeer? = some address) : r'.service.current = r.service.current := by
  obtain ⟨n, hn, hsame, hcut⟩ := h
  obtain ⟨job, secure, endpoint, timeout, next, hcurrent⟩ :=
    Reception.current_of_bootstrapPeer hsent
  obtain ⟨c', next', x, -, hrest, ⟨-, hrank⟩, hpermits, -⟩ := hcut.busy _ hcurrent
  dsimp only at hrest
  cases hrest
  refine hsame (Nat.lt_succ_of_le ?_)
  rw [show x = .opened from hpermits] at hrank
  exact hrank

/-- A wait is over as soon as it is asked for, and no other comes after it. The operation is over
too, unless it was told before that the session was finished. -/
theorem wait_ends {timeout : Duration} (h : CutShort r r')
    (hasked : r'.asked? = some (.awaitFinish timeout)) :
    ∃ input r'', (input = .beginWait ∨ input = .endWait) ∧
      Reception.step setup r' input = some r'' ∧
      (∀ timeout', r''.asked? ≠ some (.awaitFinish timeout')) ∧
      (r''.service.current = none ∨
        ∃ wait, r'.wait = some wait ∧ r'.gate.isFinished wait.session = true) := by
  obtain ⟨n, hn, -, hcut⟩ := h
  obtain ⟨job, next, hcurrent⟩ := current_of_asked hasked
  have hvacant := hcut.vacant
  have hconclude : ∀ (gate : Gate) (finished : Bool), gate.Vacant →
      ∃ r'', (r'.withGate gate).conclude setup finished = some r'' ∧
        (∀ timeout', r''.asked? ≠ some (.awaitFinish timeout')) ∧
        (finished = false → r''.service.current = none) := by
    intro gate finished hgate
    have hmoved : Service.Cut n (r'.withGate gate).service := hcut.aside rfl hgate
    have hcurrent' : (r'.withGate gate).service.current =
        some ⟨job, .call (.awaitFinish timeout) next⟩ := hcurrent
    obtain ⟨s'', hs''⟩ : ∃ s'', (r'.withGate gate).service.step setup (.answer (.flag finished)) =
        some s'' := by
      simp only [Service.step, hcurrent']
      exact ⟨_, rfl⟩
    obtain ⟨n', -, hcut', hlate⟩ := hmoved.answer hn hs''
    obtain ⟨hwaited, hlapsed⟩ := hlate job timeout next hcurrent'
    refine ⟨⟨s'', r'.elapsed, none⟩, by rw [conclude, hs'']; rfl, fun timeout' hagain => ?_, ?_⟩
    · obtain ⟨job', next', hwaits⟩ := current_of_asked hagain
      obtain ⟨c', next'', x, -, hrest, ⟨-, hrank⟩, hpermits, -⟩ := hcut'.busy _ hwaits
      dsimp only at hrest
      cases hrest
      -- whoever has waited is past the leg in which a wait is permitted
      rw [show x = .requested from hpermits] at hrank
      exact absurd (Nat.le_trans hwaited hrank) (by decide)
    · rintro rfl
      rw [hlapsed rfl] at hcut'
      exact hcut'.current_eq_none
  cases hwait : r'.wait with
  | none =>
    obtain ⟨r'', hr'', hover, hended⟩ := hconclude r'.gate false hvacant
    refine ⟨.beginWait, r'', Or.inl rfl, ?_, hover, Or.inl (hended rfl)⟩
    have hclaim : r'.gate.claim = (none, r'.gate) := by
      rw [Gate.claim, show r'.gate.unclaimed = none from hvacant.unclaimed]
    simp only [Reception.step, hwait, hasked, hclaim]
    exact hr''
  | some wait =>
    obtain ⟨r'', hr'', hover, hended⟩ := hconclude (r'.gate.release wait.session)
      (r'.gate.isFinished wait.session) (hvacant.moves (.release wait.session))
    refine ⟨.endWait, r'', Or.inr rfl, ?_, hover, ?_⟩
    · have hreleased : r'.isOver wait = true := by
        have hmay : r'.gate.mayFinish wait.session = false := by
          simp only [Gate.mayFinish, show r'.gate.session = .closed from hvacant.session]
        simp [isOver, hmay]
      simp only [Reception.step, hwait, hreleased, if_true]
      exact hr''
    · cases hfinished : r'.gate.isFinished wait.session with
      | false => exact Or.inl (hended hfinished)
      | true => exact Or.inr ⟨wait, rfl, hfinished⟩

end CutShort

/-- Closing the session of the operation in progress cuts it short. -/
theorem cutShort_of_close (hactive : r.gate.isActive = true)
    (hmonitored : Service.Monitored singleAttempt Leg.IsAt (fun _ _ x => x.isUnderway = false)
      (fun client _ => client.gate.isActive = false) r.service)
    (hcurrent : r'.service.current = r.service.current) (hgate : r'.gate = r.gate.close.gate) :
    CutShort r r' := by
  have hvacant : r'.gate.Vacant := hgate ▸ Gate.vacant_close hactive
  refine ⟨1, Nat.le_refl 1, fun _ => hcurrent, fun _ => hvacant, fun thread hthread => ?_⟩
  obtain ⟨c, next, x, hasked, hrest, hx, hkeeps⟩ := hmonitored.busy thread (hcurrent ▸ hthread)
  exact ⟨c, next, x, hasked, hrest, ⟨hvacant, Leg.rank_of_underway (hx hactive)⟩,
    hkeeps.mono fun _ _ _ => trivial⟩

/-! ### Turns -/

/-- Nobody that waits for its turn goes away without having it. -/
theorem step_waiting {input : Input} (hstep : step setup r input = some r')
    (hturn : ∀ index, input ≠ .service (.turn index)) :
    r.service.waiting <+: r'.service.waiting := by
  obtain ⟨gate, -, hservice | ⟨own, -, hturns, hservice⟩⟩ := step_service hstep
  · rw [hservice]
    exact List.prefix_rfl
  · refine Service.step_waiting (s := (r.withGate gate).service) hservice fun index heq => ?_
    exact hturn index (heq ▸ hturns index heq)

theorem run_waiting (hrun : run setup r inputs = some r')
    (hturn : ∀ index, .service (.turn index) ∉ inputs) :
    r.service.waiting <+: r'.service.waiting := by
  induction inputs generalizing r with
  | nil =>
    cases hrun
    exact List.prefix_rfl
  | cons input rest ih =>
    obtain ⟨mid, hmid, hrest⟩ := Option.bind_eq_some_iff.mp hrun
    have hfirst := step_waiting hmid fun index heq => hturn index (heq ▸ List.mem_cons_self)
    exact hfirst.trans (ih hrest fun index hmem => hturn index (List.mem_cons_of_mem input hmem))

/-- Where no operation is in progress and none has its turn, the registration is left alone. -/
theorem run_idle (hrun : run setup r inputs = some r') (hidle : r.service.current = none)
    (hturn : ∀ index, .service (.turn index) ∉ inputs) :
    r'.service.client.registration = r.service.client.registration := by
  induction inputs generalizing r with
  | nil =>
    cases hrun
    rfl
  | cons input rest ih =>
    obtain ⟨mid, hmid, hrest⟩ := Option.bind_eq_some_iff.mp hrun
    have hfirst : mid.service.current = none ∧
        mid.service.client.registration = r.service.client.registration := by
      obtain ⟨gate, -, hservice | ⟨own, -, hturns, hservice⟩⟩ := step_service hmid
      · rw [hservice]
        exact ⟨hidle, rfl⟩
      · refine Service.step_idle (s := (r.withGate gate).service) hservice hidle fun index heq =>
          ?_
        exact hturn index (heq ▸ hturns index heq ▸ List.mem_cons_self)
    refine (ih hrest hfirst.1 fun index hmem => ?_).trans hfirst.2
    exact hturn index (List.mem_cons_of_mem input hmem)

/-- A shutdown that was asked for waits for its turn until it has it. -/
theorem mem_waiting_of_shutdown
    (hmore : run setup r (.service (.operate .shutdown) :: more) = some r')
    (hturn : ∀ index, .service (.turn index) ∉ more) :
    ⟨.operation .shutdown, (Service.Job.operation .shutdown).pending setup⟩ ∈
      r'.service.waiting := by
  obtain ⟨r₀, hstep, hrest⟩ := Option.bind_eq_some_iff.mp hmore
  refine (run_waiting hrest hturn).subset ?_
  have hlaunch :
      some { r with service := Service.launch setup r.service (.operation .shutdown) } =
        some r₀ :=
    hstep
  cases hlaunch
  rcases (Service.launched setup r.service (.operation .shutdown)).waiting
    with hwaiting | ⟨hother, -⟩
  · rw [hwaiting]
    exact List.mem_append_right _ (List.mem_singleton.mpr rfl)
  · cases hother

/-- Where the turn of a shutdown has just ended in success, no registration is held. -/
theorem unheld_of_ended {scheduler : Scheduler Service.Task}
    (hfresh : scheduler = .timeline {} ∨ scheduler = .worker {})
    (hrun : run setup { service := Service.initial scheduler } inputs = some r)
    (hunfailing : Service.Unfailing r.service.history) (hidle : r.service.current = none)
    (hended : r.service.history.head? = some (.ended (.operation .shutdown) true)) :
    r.service.client.registration.id = none := by
  have hmonitored := monitored_of_run (Service.provenance_serves setup)
    (fun x client client' history events hregistration _ haside hx =>
      ⟨hregistration ▸ hx.1, (Service.heldId_of_settled fun e he =>
        Service.Event.settle_of_isAside (haside e he)).trans hx.2⟩)
    (fun client client' history events hregistration _ haside htold => by
      rw [Service.HasTold, hregistration, Service.heldId_of_settled fun e he =>
        Service.Event.settle_of_isAside (haside e he)]
      exact htold)
    hfresh rfl hrun hunfailing
  obtain ⟨earlier, hhistory⟩ := List.head?_eq_some_iff.mp hended
  have htold := hmonitored.idle hidle
  rw [Service.HasTold, hhistory] at htold
  exact htold

/-- If the session of the operation in progress is open when the engine is shut down, then
the operation sends no Bootstrap request any more, and a wait of it is over at once, without
any time passing; the operation is over with it unless the session was finished before. All
the while the shutdown waits for nothing but its turn. Once the turn of a shutdown has ended
in success no registration is held, neither when it returns nor before, for as long as no
other operation has its turn. -/
theorem shutdown_cuts_open_session {scheduler : Scheduler Service.Task}
    (hfresh : scheduler = .timeline {} ∨ scheduler = .worker {})
    (hrun : run setup { service := Service.initial scheduler } inputs = some r)
    (hmore : run setup r (.service (.operate .shutdown) :: more) = some r')
    (hunfailing : Service.Unfailing r'.service.history) :
    (r.gate.isActive = true → (∀ index, .service (.turn index) ∉ more) →
      (∀ address, r'.bootstrapPeer? = some address → r'.service.current = r.service.current) ∧
      (∀ timeout, r'.asked? = some (.awaitFinish timeout) →
        ∃ input r'', (input = .beginWait ∨ input = .endWait) ∧ step setup r' input = some r'' ∧
          (∀ timeout', r''.asked? ≠ some (.awaitFinish timeout')) ∧
          (r''.service.current = none ∨
            ∃ wait, r'.wait = some wait ∧ r'.gate.isFinished wait.session = true)) ∧
      ⟨.operation .shutdown, (Service.Job.operation .shutdown).pending setup⟩ ∈
        r'.service.waiting) ∧
    (r'.service.current = none →
      r'.service.history.head? = some (.ended (.operation .shutdown) true) →
        ∀ later r'', run setup r' later = some r'' → (∀ index, .service (.turn index) ∉ later) →
          r''.service.client.registration.id = none) := by
  constructor
  · intro hactive hturn
    have hmonitored := monitored_of_run (Service.attempt_serves setup)
      (fun x client client' history events _ hopens _ hx hactive => hx (hopens hactive))
      (fun client client' history events _ hopens _ hshut =>
        Bool.eq_false_iff.mpr fun hactive => by cases hshut.symm.trans (hopens hactive))
      hfresh rfl hrun (unfailing_of_run hmore hunfailing)
    obtain ⟨r₀, hstep, hrest⟩ := Option.bind_eq_some_iff.mp hmore
    have hshut := step_meanwhile hstep rfl
    have hcut : CutShort r r' :=
      (cutShort_of_close hactive hmonitored hshut.current hshut.gate).run hrest hturn
    exact ⟨fun address => hcut.current_of_bootstrapPeer, fun timeout => hcut.wait_ends,
      mem_waiting_of_shutdown hmore hturn⟩
  · intro hidle hended later r'' hlater hturn
    have hall : run setup { service := Service.initial scheduler }
        (inputs ++ .service (.operate .shutdown) :: more) = some r' := by
      rw [run_append, hrun]
      exact hmore
    rw [run_idle hlater hidle hturn]
    exact unheld_of_ended hfresh hall hunfailing hidle hended

/-- The server accepts a bootstrap, and the engine waits for its end. -/
def waitingForEnd : List Input :=
  approaching ++ [.service (.answer (.object (some ⟨ObjectId.server, .ofList []⟩))),
    .service (.answer (.response (some ⟨.changed, none⟩))), .beginWait]

/-- The engine takes its registration back. -/
def takingBack : List Input :=
  [.service (.turn 0), .service (.answer (.object (some Service.sampleSecurities))),
    .service (.answer (.object (some (Service.sampleServers 30)))),
    .service (.answer (.response (some ⟨.deleted, none⟩)))]

/-- Whether the operation in progress asks to wait for the end of its session. -/
def asksToWait (r : Reception) : Bool :=
  match r.asked? with
  | some (.awaitFinish _) => true
  | _ => false

theorem asked?_of_asksToWait (h : r.asksToWait = true) :
    ∃ timeout, r.asked? = some (.awaitFinish timeout) := by
  unfold asksToWait at h
  split at h
  · rename_i timeout hasked
    exact ⟨timeout, hasked⟩
  · cases h

/-- The shutdown, whose turn is over, shuts the timeline down and returns. -/
def goingBack : List Input := [.service (.windUp 0 false), .service (.goBack 0)]

theorem cut_short_once_waiting :
    (∃ r r' input r'' timeout,
      run ⟨{}, {}⟩ { service := Service.initial (.timeline {}) } waitingForEnd = some r ∧
        r.gate.isActive = true ∧ run ⟨{}, {}⟩ r [.service (.operate .shutdown)] = some r' ∧
        r'.asked? = some (.awaitFinish timeout) ∧ step ⟨{}, {}⟩ r' input = some r'' ∧
        (input = .beginWait ∨ input = .endWait) ∧ r''.service.current = none) ∧
    ∃ r r' r'', run ⟨{}, {}⟩ { service := Service.initial (.timeline {}) }
          ((Service.registering 30).map .service) = some r ∧
        r.service.client.registration.id ≠ none ∧
        run ⟨{}, {}⟩ r (.service (.operate .shutdown) :: takingBack) = some r' ∧
        run ⟨{}, {}⟩ r' goingBack = some r'' ∧
        r''.service.history.head? = some (.returned (.operation .shutdown) true) ∧
        r''.service.client.registration.id = none := by
  constructor
  · have hpossible :
        (run ⟨{}, {}⟩ { service := Service.initial (.timeline {}) } waitingForEnd).any
        fun r => r.gate.isActive && (run ⟨{}, {}⟩ r [.service (.operate .shutdown)]).any fun r' =>
          decide (Service.Unfailing r'.service.history ∧ r'.asksToWait = true ∧
            ∀ wait, r'.wait = some wait → r'.gate.isFinished wait.session = false) := by
      decide +kernel
    obtain ⟨r, hrun, hcheck⟩ := (Option.any_eq_true _ _).mp hpossible
    obtain ⟨hactive, hcheck⟩ := Bool.and_eq_true_iff.mp hcheck
    obtain ⟨r', hmore, hcheck⟩ := (Option.any_eq_true _ _).mp hcheck
    obtain ⟨hunfailing, hasks, hunfinished⟩ := of_decide_eq_true hcheck
    obtain ⟨timeout, hasked⟩ := asked?_of_asksToWait hasks
    obtain ⟨hcut, -⟩ := shutdown_cuts_open_session (Or.inl rfl) hrun hmore hunfailing
    obtain ⟨-, hwait, -⟩ := hcut hactive (by simp)
    obtain ⟨input, r'', hinput, hstep, -, hended⟩ := hwait timeout hasked
    refine ⟨r, r', input, r'', timeout, hrun, hactive, hmore, hasked, hstep, hinput, ?_⟩
    refine hended.resolve_right ?_
    rintro ⟨wait, hwait, hfinished⟩
    cases (hunfinished wait hwait).symm.trans hfinished
  · have hpossible : (run ⟨{}, {}⟩ { service := Service.initial (.timeline {}) }
        ((Service.registering 30).map .service)).any fun r =>
          r.service.client.registration.id.isSome &&
            (run ⟨{}, {}⟩ r (.service (.operate .shutdown) :: takingBack)).any fun r' =>
              decide (Service.Unfailing r'.service.history ∧ r'.service.current.isNone ∧
                r'.service.hasEnded .shutdown true) &&
              (run ⟨{}, {}⟩ r' goingBack).any fun r'' =>
                r''.service.hasReturned .shutdown true := by
      decide +kernel
    obtain ⟨r, hrun, hcheck⟩ := (Option.any_eq_true _ _).mp hpossible
    obtain ⟨hid, hcheck⟩ := Bool.and_eq_true_iff.mp hcheck
    obtain ⟨r', hmore, hcheck⟩ := (Option.any_eq_true _ _).mp hcheck
    obtain ⟨hover, hcheck⟩ := Bool.and_eq_true_iff.mp hcheck
    obtain ⟨hunfailing, hidle, hended⟩ := of_decide_eq_true hover
    obtain ⟨r'', hlater, hreturned⟩ := (Option.any_eq_true _ _).mp hcheck
    obtain ⟨-, hlost⟩ := shutdown_cuts_open_session (Or.inl rfl) hrun hmore hunfailing
    exact ⟨r, r', r'', hrun, Option.isSome_iff_ne_none.mp hid, hmore, hlater,
      Service.head?_of_hasReturned hreturned,
      hlost (Option.isNone_iff_eq_none.mp hidle)
        (Service.head?_of_hasEnded hended) goingBack r'' hlater
        (by simp [goingBack])⟩

/-- An operation waits for its turn when the engine is shut down, and has it as soon as the
shutdown has given up its own. It registers. -/
def registeringMeanwhile : List Input :=
  [.service (.operate .register), .service (.operate .shutdown), .service (.turn 1),
    .service (.turn 0), .service (.answer (.object (some Service.sampleSecurities))),
    .service (.answer (.object (some (Service.sampleServers 30)))), .service (.answer (.ids [])),
    .service (.answer (.response (some ⟨.created, some "r"⟩)))]

/-- A shutdown that succeeds may return with a registration held, if another operation has
its turn before it returns. -/
theorem registered_when_shutdown_returns :
    ∃ r, run ⟨{}, {}⟩ { service := Service.initial (.timeline {}) }
      (registeringMeanwhile ++ goingBack) =
        some r ∧ Service.Unfailing r.service.history ∧
      r.service.history.head? = some (.returned (.operation .shutdown) true) ∧
      r.service.client.registration.id = some "r" := by
  have hpossible : (run ⟨{}, {}⟩ { service := Service.initial (.timeline {}) }
      (registeringMeanwhile ++ goingBack)).any fun r =>
        decide (Service.Unfailing r.service.history ∧ r.service.hasReturned .shutdown true ∧
          r.service.client.registration.id = some "r") := by
    decide +kernel
  obtain ⟨r, hrun, hcheck⟩ := (Option.any_eq_true _ _).mp hpossible
  obtain ⟨hunfailing, hreturned, hid⟩ := of_decide_eq_true hcheck
  exact ⟨r, hrun, hunfailing, Service.head?_of_hasReturned hreturned, hid⟩

/-- The engine is registered and has sent an Update request. -/
def refreshing : List Input :=
  (Service.registering 30).map .service ++
    [.service (.operate .update), .service (.turn 0),
      .service (.answer (.object (some Service.sampleSecurities))),
      .service (.answer (.object (some (Service.sampleServers 30))))]

/-- The Update request is not answered, and the store names a bootstrap server by now. -/
def escalating : List Input :=
  [.service (.answer (.response none)), .service (.answer (.object (some sampleStore))),
    .service (.answer (.object (some ⟨ObjectId.server, .ofList []⟩)))]

/-- The engine is shut down while an update is in progress, which fails after that. It sends a
Bootstrap request, and then it waits for as long as a bootstrap may take. -/
theorem bootstrap_outlives_shutdown :
    ∃ r r₁ r₂ wait,
      run ⟨{}, {}⟩ { service := Service.initial (.timeline {}) } refreshing = some r ∧
        r.service.requested? = some (.update "r") ∧
        run ⟨{}, {}⟩ r (.service (.operate .shutdown) :: escalating) = some r₁ ∧
        r₁.bootstrapPeer? = some sampleServer ∧
        run ⟨{}, {}⟩ r₁ [.service (.answer (.response (some ⟨.changed, none⟩))),
          .beginWait] = some r₂ ∧
        Service.Unfailing r₂.service.history ∧ r₂.wait = some wait ∧ r₂.isOver wait = false ∧
        wait.deadline = r₂.elapsed + ({} : Settings).bootstrapTimeout.nanos := by
  have hpossible :
      (run ⟨{}, {}⟩ { service := Service.initial (.timeline {}) } refreshing).any fun r =>
      decide (r.service.requested? = some (.update "r")) &&
        (run ⟨{}, {}⟩ r (.service (.operate .shutdown) :: escalating)).any fun r₁ =>
          decide (r₁.bootstrapPeer? = some sampleServer) &&
            (run ⟨{}, {}⟩ r₁ [.service (.answer (.response (some ⟨.changed, none⟩))),
              .beginWait]).any
              fun r₂ => decide (Service.Unfailing r₂.service.history) && r₂.wait.any fun wait =>
                decide (r₂.isOver wait = false ∧
                  wait.deadline = r₂.elapsed + ({} : Settings).bootstrapTimeout.nanos) := by
    decide +kernel
  obtain ⟨r, hrun, hcheck⟩ := (Option.any_eq_true _ _).mp hpossible
  obtain ⟨hrequested, hcheck⟩ := Bool.and_eq_true_iff.mp hcheck
  obtain ⟨r₁, hmore, hcheck⟩ := (Option.any_eq_true _ _).mp hcheck
  obtain ⟨hsent, hcheck⟩ := Bool.and_eq_true_iff.mp hcheck
  obtain ⟨r₂, hwaits, hcheck⟩ := (Option.any_eq_true _ _).mp hcheck
  obtain ⟨hunfailing, hcheck⟩ := Bool.and_eq_true_iff.mp hcheck
  obtain ⟨wait, hwait, hcheck⟩ := (Option.any_eq_true _ _).mp hcheck
  obtain ⟨hover, hdeadline⟩ := of_decide_eq_true hcheck
  exact ⟨r, r₁, r₂, wait, hrun, of_decide_eq_true hrequested, hmore, of_decide_eq_true hsent,
    hwaits, of_decide_eq_true hunfailing, hwait, hover, hdeadline⟩

end Reception
end Lwm2mClient
