import Lwm2mClient.Proofs.Sessions.Attempts
import Lwm2mClient.Proofs.Sessions.Visits

/-!
What a visit to the gate of sessions comes to, told from the visits before it alone. A session is
open from its admission until the gate is closed, its peer is let in for as long, and the first
wait after an accepted finish is the only one that the finish satisfies.
-/
namespace Lwm2mClient.Scenario

open Net

/-- What somebody asks of the gate. -/
inductive Visit where
  | enter (peer : ServerInfo)
  | finish (sender : SocketAddress)
  | purge (sender : SocketAddress) (path : String)
  | close
  | wait (timeout : Duration)

/-- A visit with what came of it. -/
inductive Entry where
  | admitted (peer : ServerInfo) (opened : Bool)
  | finished (sender : SocketAddress) (verdict : Except Rejection Unit)
  | purged (sender : SocketAddress) (path : String) (verdict : Except Rejection Unit)
  | closed
  | waited (timeout : Duration) (finished : Bool)

/-- What comes of a visit; nothing if the store fails. -/
def World.visit (w : World) : Visit → Option (World × Entry)
  | .enter peer => some ((w.openSession peer).1, .admitted peer (w.openSession peer).2)
  | .finish sender =>
    some ((w.receiveFinish sender).1, .finished sender (w.receiveFinish sender).2)
  | .purge sender path =>
    match w.receiveDelete sender path with
    | (w, .ok verdict) => some (w, .purged sender path verdict)
    | (_, .error _) => none
  | .close => some (w.closeSession, .closed)
  | .wait timeout => some ((w.awaitEnd timeout).1, .waited timeout (w.awaitEnd timeout).2)

theorem World.visit_of_isReliable {w : World} (h : w.IsReliable) (v : Visit) :
    ∃ w' e, w.visit v = some (w', e) := by
  cases v with
  | purge sender path =>
    obtain ⟨w', verdict, hpurge⟩ := receiveDelete_of_isReliable h sender path
    exact ⟨w', .purged sender path verdict, by simp only [visit, hpurge]⟩
  | _ => exact ⟨_, _, rfl⟩

/-- A world with the visits to its gate so far, the latest first. -/
inductive History : World → List Entry → Prop
  | start {w : World} (hgate : w.gate = {}) : History w []
  | visit {w w' : World} {past : List Entry} {v : Visit} {e : Entry} (h : History w past)
      (hvisit : w.visit v = some (w', e)) : History w' (e :: past)
  /-- Anything but a visit to the gate. -/
  | elsewhere {w w' : World} {past : List Entry} (h : History w past) (hgate : w'.gate = w.gate) :
      History w' past

namespace Entry

/-- An accepted finish. -/
def isFinish : Entry → Bool
  | finished _ (.ok ()) => true
  | _ => false

def isWait : Entry → Bool
  | waited .. => true
  | _ => false

end Entry

/-- The latest session was opened with a peer, and these are the visits since. -/
def Since (past : List Entry) (peer : ServerInfo) (since : List Entry) : Prop :=
  (∃ before, past = since ++ .admitted peer true :: before) ∧
    ∀ other, .admitted other true ∉ since

/-- A session with a peer was opened and has not been closed since. -/
def OpenWith (past : List Entry) (peer : ServerInfo) : Prop :=
  ∃ since, Since past peer since ∧ .closed ∉ since

/-- Since the latest session was opened a finish was accepted, and neither was the session closed
nor has anybody waited for its end. -/
def Signalled (past : List Entry) : Prop :=
  ∃ peer since, Since past peer since ∧ since.any Entry.isFinish ∧ .closed ∉ since ∧
    ¬since.any Entry.isWait

variable {past since since' : List Entry} {peer peer' : ServerInfo} {e : Entry}

namespace Since

theorem admitted (past : List Entry) (peer : ServerInfo) :
    Since (.admitted peer true :: past) peer [] :=
  ⟨⟨past, rfl⟩, fun _ h => nomatch h⟩

theorem cons (h : Since past peer since) (he : ∀ other, e ≠ .admitted other true) :
    Since (e :: past) peer (e :: since) := by
  obtain ⟨⟨before, hpast⟩, hlatest⟩ := h
  refine ⟨⟨before, congrArg (e :: ·) hpast⟩, ?_⟩
  intro other hmem
  rcases List.mem_cons.mp hmem with heq | hmem
  · exact he other heq.symm
  · exact hlatest other hmem

theorem of_cons (h : Since (e :: past) peer since) (he : ∀ other, e ≠ .admitted other true) :
    ∃ since', since = e :: since' ∧ Since past peer since' := by
  obtain ⟨⟨before, hpast⟩, hlatest⟩ := h
  cases since with
  | nil =>
    cases hpast
    exact absurd rfl (he peer)
  | cons e' rest =>
    obtain ⟨rfl, hrest⟩ := List.cons.inj hpast
    refine ⟨rest, rfl, ⟨before, hrest⟩, ?_⟩
    intro other hmem
    exact hlatest other (List.mem_cons_of_mem e hmem)

theorem of_admitted (h : Since (.admitted peer' true :: past) peer since) :
    peer = peer' ∧ since = [] := by
  obtain ⟨⟨before, hpast⟩, hlatest⟩ := h
  cases since with
  | nil =>
    cases hpast
    exact ⟨rfl, rfl⟩
  | cons e rest =>
    obtain ⟨rfl, -⟩ := List.cons.inj hpast
    exact absurd List.mem_cons_self (hlatest peer')

/-- There is one latest session. -/
theorem unique (h : Since past peer since) (h' : Since past peer' since') :
    peer = peer' ∧ since = since' := by
  induction past generalizing since since' with
  | nil =>
    obtain ⟨⟨before, hpast⟩, -⟩ := h
    cases since <;> cases hpast
  | cons e past ih =>
    by_cases he : ∃ other, e = .admitted other true
    · obtain ⟨other, rfl⟩ := he
      obtain ⟨rfl, rfl⟩ := of_admitted h
      obtain ⟨rfl, rfl⟩ := of_admitted h'
      exact ⟨rfl, rfl⟩
    · have hother : ∀ other, e ≠ .admitted other true := by
        intro other heq
        exact he ⟨other, heq⟩
      obtain ⟨rest, rfl, hrest⟩ := of_cons h hother
      obtain ⟨rest', rfl, hrest'⟩ := of_cons h' hother
      obtain ⟨hpeer, hsince⟩ := ih hrest hrest'
      exact ⟨hpeer, congrArg (e :: ·) hsince⟩

end Since

theorem OpenWith.of_cons (h : OpenWith (e :: past) peer)
    (he : ∀ other, e ≠ .admitted other true) : e ≠ .closed ∧ OpenWith past peer := by
  obtain ⟨since, hsince, hclosed⟩ := h
  obtain ⟨rest, rfl, hrest⟩ := hsince.of_cons he
  refine ⟨?_, rest, hrest, ?_⟩
  · intro heq
    exact hclosed (heq ▸ List.mem_cons_self)
  · intro hmem
    exact hclosed (List.mem_cons_of_mem e hmem)

/-- A gate as the visits so far left it. -/
inductive Reflects (g : Gate) (past : List Entry) : Prop where
  | closed (hclaimed : g.claimed = []) (hsession : g.session = .closed)
      (hunclaimed : g.unclaimed = none) (hopen : ∀ peer, ¬OpenWith past peer)
  /-- A session is open, and its completion is kept until somebody waits for it. -/
  | opened {peer : ServerInfo} {since : List Entry} (hclaimed : g.claimed = [])
      (hsession : g.session = .active peer g.opened) (hsince : Since past peer since)
      (hopen : .closed ∉ since)
      (hunclaimed : g.unclaimed =
        if since.any Entry.isWait then none else some ⟨g.opened, since.any Entry.isFinish⟩)

namespace Reflects

variable {g g' : Gate} {w w' : World}

/-- A visit that neither opens nor closes a session, and from which the gate comes as it was. -/
theorem cons_of_eq (h : Reflects g past) (he : ∀ other, e ≠ .admitted other true)
    (hclosed : e ≠ .closed) (hfinish : e.isFinish = false)
    (hwait : e.isWait = true → g.unclaimed = none) : Reflects g (e :: past) := by
  cases h with
  | closed hclaimed hsession hunclaimed hopen =>
    refine closed hclaimed hsession hunclaimed ?_
    intro peer h
    exact hopen peer (h.of_cons he).2
  | opened hclaimed hsession hsince hopen hunclaimed =>
    refine opened hclaimed hsession (hsince.cons he) ?_ ?_
    · intro hmem
      rcases List.mem_cons.mp hmem with heq | hmem
      · exact hclosed heq.symm
      · exact hopen hmem
    · rw [List.any_cons, List.any_cons, hfinish, Bool.false_or]
      cases he : e.isWait with
      | false => exact hunclaimed
      | true => exact hwait he

theorem enter (h : Reflects w.gate past) (peer : ServerInfo) :
    Reflects (w.openSession peer).1.gate (.admitted peer (w.openSession peer).2 :: past) := by
  simp only [World.openSession, World.report_gate]
  cases h with
  | closed hclaimed hsession hunclaimed hopen =>
    obtain ⟨hgate, hresult⟩ := Gate.tryOpen_of_closed hsession peer
    rw [hgate, hresult]
    exact opened hclaimed rfl (Since.admitted past peer) (by simp) rfl
  | opened hclaimed hsession hsince hopen hunclaimed =>
    have hrefused : w.gate.session ≠ .closed := by simp [hsession]
    obtain ⟨hgate, hresult⟩ := Gate.tryOpen_of_not_closed hrefused peer
    rw [hgate, hresult]
    apply cons_of_eq (opened hclaimed hsession hsince hopen hunclaimed)
    · simp
    · simp
    · rfl
    · simp [Entry.isWait]

theorem finish (h : Reflects w.gate past) (sender : SocketAddress) :
    Reflects (w.receiveFinish sender).1.gate
      (.finished sender (w.receiveFinish sender).2 :: past) := by
  simp only [World.receiveFinish, World.report_gate]
  cases hlet : w.gate.letIn sender with
  | error rejection =>
    obtain ⟨hresult, hgate⟩ := Gate.finish_of_refused hlet
    rw [hgate, hresult]
    apply cons_of_eq h
    · simp
    · simp
    · rfl
    · simp [Entry.isWait]
  | ok number =>
    obtain ⟨hresult, hgate⟩ := Gate.finish_of_letIn hlet
    rw [hgate, hresult]
    obtain ⟨peer', -, hactive, -, -⟩ := Gate.letIn_eq_ok.mp hlet
    cases h with
    | closed hclaimed hsession hunclaimed hopen =>
      rw [hsession] at hactive
      cases hactive
    | opened hclaimed hsession hsince hopen hunclaimed =>
      rw [hsession] at hactive
      cases hactive
      refine opened (by simp [hclaimed]) hsession (hsince.cons (by simp)) (by simp [hopen]) ?_
      rw [hunclaimed, List.any_cons, List.any_cons]
      simp only [Entry.isWait, Entry.isFinish, Bool.false_or, Bool.true_or]
      split
      · rfl
      · simp [Gate.Completion.finish]

theorem close (h : Reflects w.gate past) : Reflects w.closeSession.gate (.closed :: past) := by
  simp only [World.closeSession, World.report_gate]
  have hunbroken : ∀ number, w.gate.session ≠ .broken number := by
    intro number
    cases h with
    | closed _ hsession => simp [hsession]
    | opened _ hsession => simp [hsession]
  have hclaimed : w.gate.claimed = [] := by
    cases h with
    | closed hclaimed => exact hclaimed
    | opened hclaimed => exact hclaimed
  rw [Gate.close_gate hunbroken]
  refine closed hclaimed rfl rfl ?_
  intro peer hopen
  exact (hopen.of_cons (by simp)).1 rfl

theorem wait (h : Reflects w.gate past) (timeout : Duration) :
    Reflects (w.awaitEnd timeout).1.gate (.waited timeout (w.awaitEnd timeout).2 :: past) := by
  cases hc : w.gate.unclaimed with
  | none =>
    rw [(World.awaitEnd_of_none hc timeout).1]
    apply cons_of_eq h
    · simp
    · simp
    · rfl
    · intro _
      exact hc
  | some c =>
    cases h with
    | closed hclaimed hsession hunclaimed hopen =>
      rw [hunclaimed] at hc
      cases hc
    | opened hclaimed hsession hsince hopen hunclaimed =>
      rw [(World.awaitEnd_of_some hc hclaimed timeout).1]
      exact opened hclaimed hsession (hsince.cons (by simp)) (by simp [hopen]) rfl

/-- Every visit leaves the gate as the visits tell. -/
theorem visit {v : Visit} (h : Reflects w.gate past) (hvisit : w.visit v = some (w', e)) :
    Reflects w'.gate (e :: past) := by
  cases v with
  | enter peer =>
    cases hvisit
    exact h.enter peer
  | finish sender =>
    cases hvisit
    exact h.finish sender
  | close =>
    cases hvisit
    exact h.close
  | wait timeout =>
    cases hvisit
    exact h.wait timeout
  | purge sender path =>
    simp only [World.visit] at hvisit
    split at hvisit
    · rename_i w₁ verdict hpurge
      cases hvisit
      rw [(World.receiveDelete_ok hpurge).1]
      apply cons_of_eq h
      · simp
      · simp
      · rfl
      · simp [Entry.isWait]
    · cases hvisit

theorem of_history (h : History w past) : Reflects w.gate past := by
  induction h with
  | start hgate =>
    rw [hgate]
    refine closed rfl rfl rfl ?_
    rintro peer ⟨since, ⟨⟨before, hpast⟩, -⟩, -⟩
    cases since <;> cases hpast
  | visit _ hvisit ih => exact ih.visit hvisit
  | elsewhere _ hgate ih =>
    rw [hgate]
    exact ih

/-! ### What the gate tells -/

theorem session_eq_active (h : Reflects g past) :
    (∃ number, g.session = .active peer number) ↔ OpenWith past peer := by
  cases h with
  | closed hclaimed hsession hunclaimed hopen =>
    refine iff_of_false ?_ (hopen peer)
    rintro ⟨number, hactive⟩
    rw [hsession] at hactive
    cases hactive
  | opened hclaimed hsession hsince hopen hunclaimed =>
    constructor
    · rintro ⟨number, hactive⟩
      rw [hsession] at hactive
      cases hactive
      exact ⟨_, hsince, hopen⟩
    · rintro ⟨since', hsince', -⟩
      obtain ⟨rfl, -⟩ := hsince.unique hsince'
      exact ⟨_, hsession⟩

theorem session_eq_closed (h : Reflects g past) :
    g.session = .closed ↔ ∀ peer, ¬OpenWith past peer := by
  cases h with
  | closed hclaimed hsession hunclaimed hopen => exact iff_of_true hsession hopen
  | opened hclaimed hsession hsince hopen hunclaimed =>
    refine iff_of_false (by simp [hsession]) ?_
    intro hnone
    exact hnone _ ⟨_, hsince, hopen⟩

/-- A wait finds the completion of a finished session iff the visits signal it. -/
theorem unclaimed_finished (h : Reflects g past) :
    (∃ c, g.unclaimed = some c ∧ c.finished = true) ↔ Signalled past := by
  cases h with
  | closed hclaimed hsession hunclaimed hopen =>
    refine iff_of_false (by simp [hunclaimed]) ?_
    rintro ⟨peer, since, hsince, -, hclosed, -⟩
    exact hopen peer ⟨since, hsince, hclosed⟩
  | opened hclaimed hsession hsince hopen hunclaimed =>
    rename_i peer since
    constructor
    · rintro ⟨c, hc, hfinished⟩
      rw [hunclaimed] at hc
      split at hc
      · cases hc
      · rename_i hwait
        cases hc
        exact ⟨peer, since, hsince, hfinished, hopen, hwait⟩
    · rintro ⟨peer', since', hsince', hfinish, -, hwait⟩
      obtain ⟨-, rfl⟩ := hsince.unique hsince'
      exact ⟨_, by rw [hunclaimed, if_neg hwait], hfinish⟩

theorem claimed_eq_nil (h : Reflects g past) : g.claimed = [] := by
  cases h with
  | closed hclaimed => exact hclaimed
  | opened hclaimed => exact hclaimed

theorem awaitEnd (h : Reflects w.gate past) (timeout : Duration) :
    (w.awaitEnd timeout).2 = true ↔ Signalled past := by
  rw [← h.unclaimed_finished]
  cases hc : w.gate.unclaimed with
  | none => simp [(World.awaitEnd_of_none hc timeout).2]
  | some c => simp [(World.awaitEnd_of_some hc h.claimed_eq_nil timeout).2]

end Reflects

/-! ### What each visit comes to -/

variable {w : World}

/-- Whatever was waited for with success had been signalled by then. -/
theorem signalled_of_waited {newer older : List Entry} {timeout : Duration} (h : History w past)
    (hpast : past = newer ++ .waited timeout true :: older) : Signalled older := by
  induction h generalizing newer with
  | start _ => cases newer <;> cases hpast
  | elsewhere _ _ ih => exact ih hpast
  | visit h hvisit ih =>
    rename_i w₀ w₁ past₀ v e
    cases newer with
    | cons e' rest =>
      obtain ⟨-, hrest⟩ := List.cons.inj hpast
      exact ih hrest
    | nil =>
      obtain ⟨rfl, rfl⟩ := List.cons.inj hpast
      cases v with
      | wait timeout' =>
        simp only [World.visit, Option.some.injEq, Prod.mk.injEq, Entry.waited.injEq] at hvisit
        exact ((Reflects.of_history h).awaitEnd timeout').mp hvisit.2.2
      | purge sender path =>
        simp only [World.visit] at hvisit
        split at hvisit <;> cases hvisit
      | _ => cases hvisit

/-- What was signalled after a wait was signalled for a session that was opened after the wait. -/
theorem Signalled.since_wait {between older : List Entry} {timeout : Duration} {finished : Bool}
    (h : Signalled (between ++ .waited timeout finished :: older)) :
    ∃ peer since before, between = since ++ .admitted peer true :: before ∧
      since.any Entry.isFinish := by
  obtain ⟨peer, since, ⟨⟨before, hpast⟩, -⟩, hfinish, -, hwait⟩ := h
  rcases List.append_eq_append_iff.mp hpast with ⟨rest, hsince, hrest⟩ | ⟨rest, hbetween, hrest⟩
  · cases rest with
    | nil => cases hrest
    | cons e rest =>
      obtain ⟨rfl, -⟩ := List.cons.inj hrest
      rw [hsince, List.any_append, List.any_cons] at hwait
      exact absurd (by simp [Entry.isWait]) hwait
  · cases rest with
    | nil => cases hrest
    | cons e rest =>
      obtain ⟨rfl, -⟩ := List.cons.inj hrest
      exact ⟨peer, since, rest, hbetween, hfinish⟩

/-- After any history, a session can be opened iff none is open, a finish is accepted iff it
comes from where the peer of the open session is, the gate names that peer, and a wait is
satisfied iff the latest session is open and finished and nobody has waited for it. Two waits are
satisfied by two sessions only. -/
theorem fresh_of_history (h : History w past) :
    (∀ peer, (w.openSession peer).2 = true ↔ ∀ other, ¬OpenWith past other) ∧
      (∀ sender, (w.receiveFinish sender).2 = .ok () ↔ ∃ peer address,
        OpenWith past peer ∧ peer.address = some address ∧ address.ip = sender.ip) ∧
      (∀ peer, w.gate.peer = some peer ↔ OpenWith past peer) ∧
      (w.gate.isActive = true ↔ ∃ peer, w.gate.peer = some peer) ∧
      (∀ timeout, (w.awaitEnd timeout).2 = true ↔ Signalled past) ∧
      (∀ newer between older timeout timeout',
        past = newer ++ .waited timeout true :: (between ++ .waited timeout' true :: older) →
          ∃ peer since before, between = since ++ .admitted peer true :: before ∧
            since.any Entry.isFinish) := by
  have hg : Reflects w.gate past := Reflects.of_history h
  refine ⟨?_, ?_, ?_, ?_, hg.awaitEnd, ?_⟩
  · intro peer
    rw [← hg.session_eq_closed]
    by_cases hclosed : w.gate.session = .closed
    · exact iff_of_true (Gate.tryOpen_of_closed hclosed peer).2 hclosed
    · refine iff_of_false ?_ hclosed
      change ¬(w.gate.tryOpen peer).result = true
      rw [(Gate.tryOpen_of_not_closed hclosed peer).2]
      exact Bool.false_ne_true
  · intro sender
    change (w.gate.finish sender).result = .ok () ↔ _
    rw [Gate.finish_accepted_iff]
    constructor
    · rintro ⟨peer, number, address, hsession, hfrom⟩
      exact ⟨peer, address, hg.session_eq_active.mp ⟨number, hsession⟩, hfrom⟩
    · rintro ⟨peer, address, hopen, hfrom⟩
      obtain ⟨number, hsession⟩ := hg.session_eq_active.mpr hopen
      exact ⟨peer, number, address, hsession, hfrom⟩
  · intro peer
    rw [← hg.session_eq_active]
    unfold Gate.peer
    cases w.gate.session <;> simp
  · unfold Gate.isActive Gate.peer
    cases w.gate.session <;> simp
  · intro newer between older timeout timeout' hpast
    exact (signalled_of_waited h hpast).since_wait

/-! ### A session that follows another one -/

def samplePeer : ServerInfo := ⟨⟨.coap, "10.0.0.5", 5683⟩, some Reception.sampleServer, none⟩

/-- The same host under another port. -/
def sampleSender : SocketAddress := { Reception.sampleServer with port := 40000 }

/-- A world in which nothing has happened yet. -/
def sampleWorld : World :=
  { hosts := {}, level := none, scheduler := .timeline {}, scripts := [] }

/-- A finish satisfies a wait for the session that it ends, and no wait for the next one. -/
theorem fresh_once_finished :
    ∃ w past w' past', History w past ∧ past.any Entry.isFinish ∧
      (w.awaitEnd .zero).2 = true ∧ w.gate.isActive = true ∧
      (w.openSession samplePeer).2 ≠ true ∧ (w.receiveFinish sampleSender).2 = .ok () ∧
      History w' past' ∧ past'.any Entry.isFinish ∧
      w'.gate.peer = some samplePeer ∧ (w'.awaitEnd .zero).2 ≠ true := by
  have h₁ : History (sampleWorld.openSession samplePeer).1 [.admitted samplePeer true] :=
    History.visit (v := .enter samplePeer) (.start rfl) rfl
  have h₂ : History ((sampleWorld.openSession samplePeer).1.receiveFinish sampleSender).1
      [.finished sampleSender (.ok ()), .admitted samplePeer true] :=
    h₁.visit (v := .finish sampleSender) rfl
  have h₃ := h₂.visit (v := .close) rfl
  have h₄ := h₃.visit (v := .enter samplePeer) rfl
  have hsince : Since [.finished sampleSender (.ok ()), .admitted samplePeer true] samplePeer
      [.finished sampleSender (.ok ())] :=
    (Since.admitted [] samplePeer).cons (by simp)
  have hopen : OpenWith _ samplePeer := ⟨_, hsince, by simp⟩
  have hsignalled : Signalled _ := ⟨samplePeer, _, hsince, rfl, by simp, by decide⟩
  obtain ⟨henter, hfinish, hpeer, hactive, hwait, -⟩ := fresh_of_history h₂
  obtain ⟨-, -, hpeer', -, hwait', -⟩ := fresh_of_history h₄
  refine ⟨_, _, _, _, h₂, rfl, (hwait .zero).mpr hsignalled,
    hactive.mpr ⟨samplePeer, (hpeer samplePeer).mpr hopen⟩, ?_, ?_, h₄, rfl, ?_, ?_⟩
  · intro hopened
    exact (henter samplePeer).mp hopened samplePeer hopen
  · exact (hfinish sampleSender).mpr ⟨samplePeer, _, hopen, rfl, rfl⟩
  · exact (hpeer' samplePeer).mpr ⟨[], Since.admitted _ samplePeer, by simp⟩
  · intro hsatisfied
    obtain ⟨peer, since, hsince', hfinish', -, -⟩ := (hwait' .zero).mp hsatisfied
    obtain ⟨-, rfl⟩ := hsince'.of_admitted
    cases hfinish'

end Lwm2mClient.Scenario
