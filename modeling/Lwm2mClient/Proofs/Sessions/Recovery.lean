import Lwm2mClient.Proofs.Sessions.Freshness

/-!
What closing the session makes of a gate. A closed gate admits the next peer and lets it in,
whatever went before, with one exception: a store that failed in the middle of a purge has broken
the gate, and nothing mends it. Unlike the visits of a history, the uses of a gate told here may
fail, and somebody may wait for the end of a session while other visits go on.
-/
namespace Lwm2mClient

open Net

namespace Gate

def isBroken (g : Gate) : Bool :=
  match g.session with
  | .broken _ => true
  | _ => false

variable {g : Gate} {peer : ServerInfo} {sender : SocketAddress}

theorem isBroken_tryOpen (g : Gate) (peer : ServerInfo) :
    (g.tryOpen peer).gate.isBroken = g.isBroken := by
  unfold tryOpen
  split
  · rename_i hclosed
    simp only [isBroken, hclosed]
  · rfl
  · rfl

theorem isBroken_finish (g : Gate) (sender : SocketAddress) :
    (g.finish sender).gate.isBroken = g.isBroken := by
  unfold finish
  split <;> rfl

theorem isBroken_close (g : Gate) : g.close.gate.isBroken = g.isBroken := by
  unfold close
  split
  · rfl
  · rename_i hactive
    simp only [isBroken, hactive]
  · rfl

theorem isBroken_claim (g : Gate) : g.claim.2.isBroken = g.isBroken := by
  unfold claim
  split <;> rfl

/-- A store fails only in the middle of a purge that was accepted, and this breaks the gate. -/
theorem isBroken_breakDown {path : String} (h : g.acceptsDelete sender path = .ok ()) :
    g.breakDown.isBroken = true := by
  unfold acceptsDelete at h
  split at h
  · cases h
  · rename_i number hlet
    obtain ⟨peer, address, hactive, -, -⟩ := letIn_eq_ok.mp hlet
    simp only [breakDown, hactive, isBroken]

theorem session_close_of_whole (h : g.isBroken = false) : g.close.gate.session = .closed := by
  rw [close_gate]
  intro number hbroken
  simp only [isBroken, hbroken] at h
  cases h

end Gate

namespace Scenario

variable {w w' : World} {failed : Bool}

/-- A world as the uses of its gate left it, and whether the store has ever failed
in the middle of a purge. -/
inductive Used : World → Bool → Prop
  | start {w : World} (hgate : w.gate = {}) : Used w false
  | visit {w w' : World} {failed : Bool} {v : Visit} {e : Entry} (h : Used w failed)
      (hvisit : w.visit v = some (w', e)) : Used w' failed
  /-- A delete message reaches the gate, and the store fails during the purge. -/
  | failure {w w' : World} {failed : Bool} {sender : SocketAddress} {path : String}
      {fault : Fault} (h : Used w failed)
      (hpurge : w.receiveDelete sender path = (w', .error fault)) : Used w' true
  /-- Somebody begins to wait for the end of a session, and does so while other things happen. -/
  | waitBegins {w : World} {failed : Bool} (h : Used w failed) (timeout : Duration) :
      Used (w.startWait timeout).1 failed
  | waitEnds {w : World} {failed : Bool} (h : Used w failed) (number : Nat) :
      Used { w with gate := w.gate.release number } failed
  /-- Anything that leaves the gate alone. -/
  | elsewhere {w w' : World} {failed : Bool} (h : Used w failed)
      (hgate : w'.gate = w.gate) : Used w' failed

namespace World

theorem startWait_isBroken (w : World) (timeout : Duration) :
    (w.startWait timeout).1.gate.isBroken = w.gate.isBroken := by
  have hclaim := Gate.isBroken_claim w.gate
  unfold startWait
  split
  · rename_i session gate heq
    rw [heq] at hclaim
    exact hclaim
  · rename_i gate heq
    rw [heq] at hclaim
    exact hclaim

theorem awaitEnd_isBroken (w : World) (timeout : Duration) :
    (w.awaitEnd timeout).1.gate.isBroken = w.gate.isBroken := by
  have hwait := startWait_isBroken w timeout
  unfold startWait at hwait
  simp only [awaitEnd, startWait]
  split at hwait
  · rename_i session gate heq
    simp only [move]
    change (World.passFor _ _).gate.isBroken = _
    rw [passFor_gate]
    exact hwait
  · exact hwait

/-- A visit that comes to something neither breaks a gate nor mends it. -/
theorem visit_isBroken {v : Visit} {e : Entry} (h : w.visit v = some (w', e)) :
    w'.gate.isBroken = w.gate.isBroken := by
  cases v with
  | enter peer =>
    cases h
    simp only [openSession, report_gate, Gate.isBroken_tryOpen]
  | finish sender =>
    cases h
    simp only [receiveFinish, report_gate, Gate.isBroken_finish]
  | close =>
    cases h
    simp only [closeSession, report_gate, Gate.isBroken_close]
  | wait timeout =>
    cases h
    exact awaitEnd_isBroken w timeout
  | purge sender path =>
    simp only [visit] at h
    split at h
    · rename_i w₁ verdict hpurge
      cases h
      rw [(receiveDelete_ok hpurge).1]
    · cases h

theorem receiveDelete_isBroken {sender : SocketAddress} {path : String} {fault : Fault}
    (h : w.receiveDelete sender path = (w', .error fault)) : w'.gate.isBroken = true := by
  unfold receiveDelete at h
  split at h
  · cases h
  · rename_i haccepted
    have hgate := (consult_keeps (Purge.purge_asks sender) w).1
    split at h
    · cases h
    · rename_i w₁ fault' hfault
      rw [hfault] at hgate
      cases h
      dsimp only at hgate ⊢
      rw [hgate]
      exact Gate.isBroken_breakDown haccepted

/-- A closed gate admits a peer and lets it in. -/
theorem openSession_of_closed (h : w.gate.session = .closed) (peer : ServerInfo) :
    (w.openSession peer).2 = true ∧ (w.openSession peer).1.gate.peer = some peer ∧
      ∀ sender, ((w.openSession peer).1.receiveFinish sender).2 = .ok () ↔
        ∃ address, peer.address = some address ∧ address.ip = sender.ip := by
  have hgate : (w.openSession peer).1.gate = (w.gate.tryOpen peer).gate := World.report_gate ..
  obtain ⟨hopened, hadmitted⟩ := Gate.tryOpen_of_closed h peer
  rw [hopened] at hgate
  refine ⟨hadmitted, by rw [hgate]; rfl, fun sender => ?_⟩
  change ((w.openSession peer).1.gate.finish sender).result = .ok () ↔ _
  rw [Gate.finish_accepted_iff, hgate]
  constructor
  · rintro ⟨peer', number, address, hactive, hfrom⟩
    cases hactive
    exact ⟨address, hfrom⟩
  · rintro ⟨address, hfrom⟩
    exact ⟨peer, _, address, rfl, hfrom⟩

/-- A broken gate admits nobody and lets nobody in. -/
theorem openSession_of_broken (h : w.gate.isBroken = true) (peer : ServerInfo) :
    (w.openSession peer).2 = false ∧ (w.openSession peer).1.gate.peer = none ∧
      ∀ sender, ((w.openSession peer).1.receiveFinish sender).2 = .error .noPendingSession := by
  have hgate : (w.openSession peer).1.gate = (w.gate.tryOpen peer).gate := World.report_gate ..
  have hnotClosed : w.gate.session ≠ .closed := by
    intro hclosed
    simp only [Gate.isBroken, hclosed] at h
    cases h
  have hshut : w.gate.isActive = false := by
    cases hsession : w.gate.session with
    | broken number => simp only [Gate.isActive, hsession]
    | _ =>
      simp only [Gate.isBroken, hsession] at h
      cases h
  obtain ⟨hsame, hrefused⟩ := Gate.tryOpen_of_not_closed hnotClosed peer
  rw [hsame] at hgate
  refine ⟨hrefused, by rw [hgate]; exact Gate.peer_of_shut hshut, fun sender => ?_⟩
  change ((w.openSession peer).1.gate.finish sender).result = _
  rw [hgate]
  exact (Gate.finish_of_refused (Gate.letIn_of_shut hshut sender)).1

end World

/-- A gate is broken iff the store has failed in the middle of a purge. -/
theorem Used.isBroken (h : Used w failed) : w.gate.isBroken = failed := by
  induction h with
  | start hgate =>
    rw [hgate]
    rfl
  | visit _ hvisit ih => exact (World.visit_isBroken hvisit).trans ih
  | failure _ hpurge _ => exact World.receiveDelete_isBroken hpurge
  | waitBegins _ timeout ih => exact (World.startWait_isBroken _ timeout).trans ih
  | waitEnds _ number ih => exact ih
  | elsewhere _ hgate ih =>
    rw [hgate]
    exact ih

/-- Once a session is closed, none is open and there is no peer. The next peer is admitted and let
in, unless the store has ever failed in the middle of a purge: then no peer is admitted any more,
and every finish is refused. -/
theorem usable_after_close (h : Used w failed) (peer : ServerInfo) :
    w.closeSession.gate.isActive = false ∧ w.closeSession.gate.peer = none ∧
    (failed = false → (w.closeSession.openSession peer).2 = true ∧
      (w.closeSession.openSession peer).1.gate.peer = some peer ∧
      ∀ sender, ((w.closeSession.openSession peer).1.receiveFinish sender).2 = .ok () ↔
        ∃ address, peer.address = some address ∧ address.ip = sender.ip) ∧
    (failed = true → (w.closeSession.openSession peer).2 = false ∧
      (w.closeSession.openSession peer).1.gate.peer = none ∧
      ∀ sender, ((w.closeSession.openSession peer).1.receiveFinish sender).2 =
        .error .noPendingSession) := by
  have hclosed : w.closeSession.gate = w.gate.close.gate := World.report_gate ..
  have hbroken : w.closeSession.gate.isBroken = failed := by
    rw [hclosed, Gate.isBroken_close, h.isBroken]
  have hshut : w.closeSession.gate.isActive = false := by
    rw [hclosed]
    exact Gate.isActive_close w.gate
  refine ⟨hshut, Gate.peer_of_shut hshut, ?_, ?_⟩
  · rintro rfl
    have hsession : w.closeSession.gate.session = .closed := by
      rw [hclosed]
      exact Gate.session_close_of_whole h.isBroken
    exact World.openSession_of_closed hsession peer
  · rintro rfl
    exact World.openSession_of_broken hbroken peer

/-- A world whose store fails when the Server object is read. -/
def brittleWorld : World :=
  { sampleWorld with
    store := ({} : Store).host ObjectId.server
    disturbance := { failingReads := [ObjectId.server] } }

/-- A session was opened, and a delete message of its peer ran into a failure of the store,
which has recovered since. -/
def brokenWorld : World :=
  { ((brittleWorld.openSession samplePeer).1.receiveDelete sampleSender "/").1 with
    disturbance := {} }

theorem used_brokenWorld : Used brokenWorld true := by
  have hopened : Used (brittleWorld.openSession samplePeer).1 false :=
    Used.visit (v := .enter samplePeer) (.start rfl) rfl
  have hpurge : (brittleWorld.openSession samplePeer).1.receiveDelete sampleSender "/" =
      (((brittleWorld.openSession samplePeer).1.receiveDelete sampleSender "/").1,
        .error .storeRead) := rfl
  have hfailed :
      Used ((brittleWorld.openSession samplePeer).1.receiveDelete sampleSender "/").1 true :=
    hopened.failure hpurge
  exact hfailed.elsewhere rfl

/-- A session that was finished makes room for the next one, and a broken one for none. -/
theorem usable_once_finished :
    (∃ w, Used w false ∧ w.gate.isActive = true ∧
      (w.closeSession.openSession samplePeer).2 = true ∧
      ((w.closeSession.openSession samplePeer).1.receiveFinish sampleSender).2 = .ok ()) ∧
    Used brokenWorld true ∧ brokenWorld.closeSession.gate.peer = none ∧
      ((brokenWorld.closeSession.openSession samplePeer).1.receiveFinish sampleSender).2 =
        .error .noPendingSession := by
  have hopened : Used (sampleWorld.openSession samplePeer).1 false :=
    Used.visit (v := .enter samplePeer) (.start rfl) rfl
  have hfinished :
      Used ((sampleWorld.openSession samplePeer).1.receiveFinish sampleSender).1 false :=
    hopened.visit (v := .finish sampleSender) rfl
  obtain ⟨-, -, husable, -⟩ := usable_after_close hfinished samplePeer
  obtain ⟨hadmitted, -, hletIn⟩ := husable rfl
  obtain ⟨-, hpeer, -, hbroken⟩ := usable_after_close used_brokenWorld samplePeer
  obtain ⟨-, -, hrefused⟩ := hbroken rfl
  refine ⟨⟨_, hfinished, rfl, hadmitted, ?_⟩, used_brokenWorld, hpeer, hrefused sampleSender⟩
  exact (hletIn sampleSender).mpr ⟨Reception.sampleServer, rfl, rfl⟩

/-- After the failure closing the session does not make the gate usable again, although the
store does not fail any more. -/
theorem unusable_after_failed_purge :
    brokenWorld.IsReliable ∧ Used brokenWorld true ∧
      (brokenWorld.closeSession.openSession samplePeer).2 = false ∧
      (brokenWorld.closeSession.openSession samplePeer).1.gate.peer = none ∧
      ((brokenWorld.closeSession.openSession samplePeer).1.receiveFinish sampleSender).2 =
        .error .noPendingSession :=
  ⟨⟨rfl, rfl⟩, used_brokenWorld, rfl, rfl, rfl⟩

end Scenario
end Lwm2mClient
