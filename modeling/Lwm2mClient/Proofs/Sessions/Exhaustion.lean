import Lwm2mClient.Proofs.Servers.Joins
import Lwm2mClient.Proofs.Sessions.Purges
import Lwm2mClient.Proofs.Store.Exchanges

/-!
The purge before any store. A store may say anything of what it hosts, hide objects, and refuse
deletions in any way; the deletions asked of it are still those of the instances that it shows,
each once and in order, and what it answers decides nothing.
-/
namespace Lwm2mClient

open Net Program ObjectStore

/-- What is done about a delete message: the purge, if it is accepted. -/
def Gate.answerDelete (g : Gate) (sender : SocketAddress) (path : String) :
    Program (Except Rejection Unit) :=
  match g.acceptsDelete sender path with
  | .error rejection => pure (.error rejection)
  | .ok () => do
    Purge.purge sender
    pure (.ok ())

theorem Gate.acceptsDelete_eq_ok_iff {g : Gate} {sender : SocketAddress} {path : String} :
    g.acceptsDelete sender path = .ok () ↔ g.AdmitsPurge sender path := by
  refine ⟨fun h => ?_, AdmitsPurge.acceptsDelete⟩
  unfold acceptsDelete at h
  split at h
  · cases h
  · rename_i number hlet
    obtain ⟨peer, address, hfrom⟩ := letIn_eq_ok.mp hlet
    split at h
    · exact ⟨⟨peer, number, address, hfrom⟩, ‹_›⟩
    · cases h

theorem Gate.answerDelete_asks (g : Gate) (sender : SocketAddress) (path : String) :
    (g.answerDelete sender path).Asks Call.isOnStore fun _ => True := by
  unfold answerDelete
  split
  · exact trivial
  · exact (Purge.purge_asks sender).bind fun _ _ => trivial

/-! ### The store of a world -/

namespace Scenario.World

variable {w : World} {sender : SocketAddress} {path : String}

/-- The store of a world, told as one that no access to fails. An object that could not be read is
hidden, and a deletion that would fail is refused. -/
def asStore : ObjectStore World where
  objectIds w := (w.store.objectIds, w)
  read n w := ((w.readObject n).2.toOption.join, (w.readObject n).1)
  delete sender n i w :=
    ((w.deleteInstance sender n i).2.toOption.getD .internalServerError,
      (w.deleteInstance sender n i).1)

theorem report_level (w : World) (lines : List Log.Line) : (w.report lines).level = w.level := by
  unfold report
  split <;> rfl

theorem readObject_level (w : World) (n : NumericId) : (w.readObject n).1.level = w.level := by
  unfold readObject
  split
  · rfl
  · split
    · rfl
    · exact report_level ..

theorem deleteInstance_level (w : World) (sender : SocketAddress) (n i : NumericId) :
    (w.deleteInstance sender n i).1.level = w.level := by
  unfold deleteInstance removeInstance
  split
  · rfl
  · cases w.disturbance.deny with
    | some code => rfl
    | none =>
      dsimp only
      split
      · exact report_level ..
      · rfl

variable {τ α : Type} (wrap : Work → τ)

/-- Where nothing is shown and no access to the store fails, a call to the store or to the log has
the same answer there as where its program is served. -/
theorem serve_asStore {c : Call} (hc : c.isOnStore) (h : w.IsReliable) (hquiet : w.level = none) :
    ∃ w' a, w.answer? none c = some (w', .ok a) ∧ w'.IsReliable ∧ w'.level = none ∧
      ∀ (next : c.Answer → Program α) (client : Client τ), ∃ exchanges,
        asStore.serve wrap (.call c next) client w =
          (asStore.serve wrap (next a) client w').after exchanges := by
  obtain ⟨w', reply, hanswer, -, hdisturbance, hok⟩ := answer?_keeps hc w
  obtain ⟨a, rfl⟩ := hok h
  refine ⟨w', a, hanswer, by rwa [IsReliable, hdisturbance], ?_⟩
  cases c with
  | log line =>
    have hreport : w' = w :=
      (congrArg Prod.fst (Option.some.inj hanswer)).symm.trans (report_of_quiet hquiet [line])
    subst hreport
    exact ⟨hquiet, fun next client => ⟨[], rfl⟩⟩
  | objectIds =>
    cases hanswer
    exact ⟨hquiet, fun next client => ⟨[⟨.objectIds, w.store.objectIds⟩], rfl⟩⟩
  | readObject n =>
    have hread : w.readObject n = (w', .ok a) := Option.some.inj hanswer
    have hlevel := readObject_level w n
    have hsame : asStore.answer? (.readObject n) w = some (a, w') := by
      change some ((w.readObject n).2.toOption.join, (w.readObject n).1) = _
      rw [hread]
      rfl
    rw [hread] at hlevel
    exact ⟨hlevel.trans hquiet, fun next client => ⟨[⟨.readObject n, a⟩], by rw [serve, hsame]⟩⟩
  | deleteInstance sender n i =>
    have hdelete : w.deleteInstance sender n i = (w', .ok a) := Option.some.inj hanswer
    have hlevel := deleteInstance_level w sender n i
    have hsame : asStore.answer? (.deleteInstance sender n i) w = some (a, w') := by
      change some ((w.deleteInstance sender n i).2.toOption.getD _,
          (w.deleteInstance sender n i).1) = _
      rw [hdelete]
      rfl
    rw [hdelete] at hlevel
    exact ⟨hlevel.trans hquiet, fun next client =>
      ⟨[⟨.deleteInstance sender n i, a⟩], by rw [serve, hsame]⟩⟩
  | _ => exact absurd hc id

/-- Then a whole program is served by the store of the world as by any other one. -/
theorem consult_eq_serve {p : Program α} {post : α → Prop} (hp : p.Asks Call.isOnStore post)
    (h : w.IsReliable) (hquiet : w.level = none) (client : Client τ) :
    ∃ w' exchanges value, w.consult p = (w', .ok value) ∧
      asStore.serve wrap p client w = ⟨client, w', exchanges, .done value⟩ := by
  induction p generalizing w with
  | done value => exact ⟨w, [], value, rfl, rfl⟩
  | call c next ih =>
    obtain ⟨w₁, a, hanswer, h₁, hquiet₁, hstep⟩ := serve_asStore wrap (α := α) hp.1 h hquiet
    obtain ⟨earlier, hserve⟩ := hstep next client
    obtain ⟨w', exchanges, value, hconsulted, hserved⟩ := ih a (hp.2 a) h₁ hquiet₁
    refine ⟨w', earlier ++ exchanges, value, ?_, by rw [hserve, hserved, Served.after]⟩
    rw [consult, follow_of_answer hp.1 hanswer]
    exact hconsulted

/-- A world takes a delete message by following what is done about it; a store that fails
on the way breaks the gate. -/
theorem receiveDelete_eq (w : World) (sender : SocketAddress) (path : String) :
    w.receiveDelete sender path =
      match w.consult (w.gate.answerDelete sender path) with
      | (w', .ok verdict) => (w', .ok verdict)
      | (w', .error fault) => ({ w' with gate := w'.gate.breakDown }, .error fault) := by
  unfold receiveDelete Gate.answerDelete
  cases w.gate.acceptsDelete sender path with
  | error rejection => rfl
  | ok accepted =>
    unfold consult
    dsimp only
    rw [follow_bind]
    rcases follow none (Purge.purge sender) w with ⟨w', pause⟩
    cases pause <;> rfl

/-- Then a delete message does to a world what its store makes of it. -/
theorem receiveDelete_eq_serve (h : w.IsReliable) (hquiet : w.level = none) (client : Client τ) :
    ∃ w' exchanges verdict, w.receiveDelete sender path = (w', .ok verdict) ∧
      asStore.serve wrap (w.gate.answerDelete sender path) client w =
        ⟨client, w', exchanges, .done verdict⟩ := by
  obtain ⟨w', exchanges, verdict, hconsulted, hserved⟩ :=
    consult_eq_serve wrap (w.gate.answerDelete_asks sender path) h hquiet client
  exact ⟨w', exchanges, verdict, by rw [receiveDelete_eq, hconsulted], hserved⟩

end Scenario.World

/-! ### The purge -/

namespace Purge

variable {sender : SocketAddress} {n : NumericId}

/-- Of the entries of an object, each instance is deleted by the number that it bears,
whatever the store answers. None is deleted of a Security instance that says of itself that
it is a bootstrap server's. -/
inductive Deletes (sender : SocketAddress) (n : NumericId) :
    List (NumericId × ObjectInstance) → List Exchange → Prop
  | nil : Deletes sender n [] []
  | kept {k : NumericId} {i : ObjectInstance} {entries : List (NumericId × ObjectInstance)}
      {deletions : List Exchange} (h : n = ObjectId.security ∧ i.IsFlagged)
      (hrest : Deletes sender n entries deletions) :
      Deletes sender n ((k, i) :: entries) deletions
  | deleted {k : NumericId} {i : ObjectInstance} {entries : List (NumericId × ObjectInstance)}
      {deletions : List Exchange} (h : ¬(n = ObjectId.security ∧ i.IsFlagged))
      (code : ResponseCode) (hrest : Deletes sender n entries deletions) :
      Deletes sender n ((k, i) :: entries) (⟨.deleteInstance sender n i.id, code⟩ :: deletions)

/-- Each object is read once, and what is seen in it is deleted before the next one is read. -/
inductive Visits (sender : SocketAddress) : List NumericId → List Exchange → Prop
  | nil : Visits sender [] []
  | hidden {n : NumericId} {ids : List NumericId} {exchanges : List Exchange}
      (hrest : Visits sender ids exchanges) :
      Visits sender (n :: ids) (⟨.readObject n, (none : Option Object)⟩ :: exchanges)
  | read {n : NumericId} {o : Object} {ids : List NumericId} {deletions exchanges : List Exchange}
      (hdeletes : Deletes sender n o.instances.entries deletions)
      (hrest : Visits sender ids exchanges) :
      Visits sender (n :: ids) (⟨.readObject n, some o⟩ :: (deletions ++ exchanges))

variable {τ σ : Type} (store : ObjectStore σ) (wrap : Work → τ) (client : Client τ)

theorem serve_purgeInstances (entries : List (NumericId × ObjectInstance)) (s : σ) :
    ∃ s' deletions, Deletes sender n entries deletions ∧
      store.serve wrap (purgeInstances sender n (entries.map (·.2))) client s =
        ⟨client, s', deletions, .done ()⟩ := by
  induction entries generalizing s with
  | nil => exact ⟨s, [], .nil, rfl⟩
  | cons e entries ih =>
    obtain ⟨k, i⟩ := e
    by_cases hkept : isKept n i = true
    · obtain ⟨s', deletions, hdeletes, hserved⟩ := ih s
      refine ⟨s', deletions, .kept (isKept_iff.mp hkept) hdeletes, ?_⟩
      rw [List.map_cons, purgeInstances, if_pos hkept]
      exact hserved
    · cases hdelete : store.delete sender n i.id s with
      | mk code s₁ =>
        have hanswer : store.answer? (.deleteInstance sender n i.id) s = some (code, s₁) :=
          congrArg some hdelete
        obtain ⟨s', deletions, hdeletes, hserved⟩ := ih s₁
        refine ⟨s', _, .deleted (mt isKept_iff.mpr hkept) code hdeletes, ?_⟩
        rw [List.map_cons, purgeInstances, if_neg hkept]
        refine serve_call hanswer ?_
        -- A refusal is reported, and what comes next is the same.
        change store.serve wrap (if (!code.isSuccess) = true then _ else _) client s₁ = _
        split
        · exact hserved
        · exact hserved

theorem serve_purgeObjects (ids : List NumericId) (s : σ) :
    ∃ s' exchanges, Visits sender ids exchanges ∧
      store.serve wrap (purgeObjects sender ids) client s =
        ⟨client, s', exchanges, .done ()⟩ := by
  induction ids generalizing s with
  | nil => exact ⟨s, [], .nil, rfl⟩
  | cons n ids ih =>
    cases hread : store.read n s with
    | mk snapshot s₁ =>
      have hanswer : store.answer? (.readObject n) s = some (snapshot, s₁) := congrArg some hread
      cases snapshot with
      | none =>
        obtain ⟨s', exchanges, hvisits, hserved⟩ := ih s₁
        refine ⟨s', _, .hidden hvisits, ?_⟩
        exact serve_call hanswer hserved
      | some o =>
        obtain ⟨s₂, deletions, hdeletes, hdeleted⟩ :=
          serve_purgeInstances store wrap client o.instances.entries s₁
        obtain ⟨s', exchanges, hvisits, hserved⟩ := ih s₂
        refine ⟨s', _, .read hdeletes hvisits, ?_⟩
        exact serve_call hanswer (serve_bind hdeleted hserved)

theorem serve_purge (sender : SocketAddress) (s : σ) :
    ∃ s' ids visits, Visits sender ids visits ∧
      store.serve wrap (purge sender) client s =
        ⟨client, s', ⟨.objectIds, ids⟩ :: visits, .done ()⟩ := by
  cases hlist : store.objectIds s with
  | mk ids s₁ =>
    have hanswer : store.answer? .objectIds s = some (ids, s₁) := congrArg some hlist
    obtain ⟨s', visits, hvisits, hserved⟩ := serve_purgeObjects store wrap client ids s₁
    have hrun : store.serve wrap (purge sender) client s =
        ⟨client, s', ⟨.objectIds, ids⟩ :: (visits ++ []), .done ()⟩ :=
      serve_call hanswer (serve_bind hserved rfl)
    rw [List.append_nil] at hrun
    exact ⟨s', ids, visits, hvisits, hrun⟩

/-- Whatever a store answers, an accepted delete message has it say what it hosts, has each
object read and each instance deleted that is seen there, once and in order, and is answered as
one that succeeded; one that is not accepted has the store do nothing. The client with its
session is as it was before. -/
theorem exhaustive_before_any_store (s : σ) (sender : SocketAddress) (path : String) :
    ∃ s' exchanges verdict,
      store.serve wrap (client.gate.answerDelete sender path) client s =
        ⟨client, s', exchanges, .done verdict⟩ ∧
      store.Gives s exchanges s' ∧
      (client.gate.AdmitsPurge sender path → verdict = .ok () ∧
        ∃ ids visits, exchanges = ⟨.objectIds, ids⟩ :: visits ∧ Visits sender ids visits) ∧
      (¬client.gate.AdmitsPurge sender path → (∃ rejection, verdict = .error rejection) ∧
        exchanges = [] ∧ s' = s) := by
  by_cases hadmits : client.gate.AdmitsPurge sender path
  · obtain ⟨s', ids, visits, hvisits, hserved⟩ := serve_purge store wrap client sender s
    have hrun : store.serve wrap (client.gate.answerDelete sender path) client s =
        ⟨client, s', (⟨.objectIds, ids⟩ :: visits) ++ [], .done (.ok ())⟩ := by
      rw [Gate.answerDelete, hadmits.acceptsDelete]
      exact serve_bind hserved rfl
    rw [List.append_nil] at hrun
    have hgives := store.gives_serve wrap (client.gate.answerDelete sender path) client s
    rw [hrun] at hgives
    exact ⟨s', _, _, hrun, hgives, fun _ => ⟨rfl, _, visits, rfl, hvisits⟩, fun hnot =>
      absurd hadmits hnot⟩
  · cases haccepts : client.gate.acceptsDelete sender path with
    | ok accepted => exact absurd (Gate.acceptsDelete_eq_ok_iff.mp haccepts) hadmits
    | error rejection =>
      refine ⟨s, [], .error rejection, ?_, .nil, fun h => absurd h hadmits, fun _ =>
        ⟨⟨rejection, rfl⟩, rfl, rfl⟩⟩
      rw [Gate.answerDelete, haccepts]
      rfl

/-- A store that hides the object it names second, and refuses every other deletion by turns. -/
def stubbornStore : ObjectStore Nat where
  objectIds turn := ([ObjectId.security, ObjectId.device, ObjectId.server], turn)
  read n turn :=
  (if n = ObjectId.device then none else Scenario.provisionedWorld.store.read n, turn)
  delete _ _ _ turn := (if turn % 2 = 0 then .unauthorized else .deleted, turn + 1)

theorem exhaustive_before_stubborn_store :
    ∃ client : Client Unit, client.gate.AdmitsPurge Scenario.sampleSender "/" ∧
      (∃ s' exchanges,
        stubbornStore.serve (fun _ => ())
          (client.gate.answerDelete Scenario.sampleSender "/") client 0 =
          ⟨client, s', exchanges, .done (.ok ())⟩ ∧
        exchanges.map (·.call) =
          [.objectIds, .readObject 0, .deleteInstance Scenario.sampleSender 0 2,
            .deleteInstance Scenario.sampleSender 0 3, .readObject 3, .readObject 1,
            .deleteInstance Scenario.sampleSender 1 0]) ∧
      ∃ rejection, stubbornStore.serve (fun _ => ())
        (client.gate.answerDelete Scenario.sampleSender "/1") client 0 =
          ⟨client, 0, [], .done (.error rejection)⟩ := by
  let client : Client Unit :=
    { gate := Scenario.provisionedWorld.gate, scheduler := .timeline {} }
  have hadmits : client.gate.AdmitsPurge Scenario.sampleSender "/" :=
    ⟨⟨Scenario.samplePeer, 1, Reception.sampleServer, rfl, rfl, rfl⟩, .inr rfl⟩
  have hnot : ¬client.gate.AdmitsPurge Scenario.sampleSender "/1" :=
    fun h => absurd h.2 (by decide)
  refine ⟨client, hadmits, ?_, ?_⟩
  · obtain ⟨s', exchanges, verdict, hrun, -, haccepted, -⟩ :=
      exhaustive_before_any_store stubbornStore (fun _ => ()) client 0 Scenario.sampleSender "/"
    obtain ⟨rfl, -⟩ := haccepted hadmits
    have hcalls :
        (stubbornStore.serve (fun _ => ())
          (client.gate.answerDelete Scenario.sampleSender "/") client
        0).exchanges.map (·.call) =
          [.objectIds, .readObject 0, .deleteInstance Scenario.sampleSender 0 2,
            .deleteInstance Scenario.sampleSender 0 3, .readObject 3, .readObject 1,
            .deleteInstance Scenario.sampleSender 1 0] := by rfl
    rw [hrun] at hcalls
    exact ⟨s', exchanges, hrun, hcalls⟩
  · obtain ⟨s', exchanges, verdict, hrun, -, -, hrejected⟩ :=
      exhaustive_before_any_store stubbornStore (fun _ => ()) client 0 Scenario.sampleSender "/1"
    obtain ⟨⟨rejection, rfl⟩, rfl, rfl⟩ := hrejected hnot
    exact ⟨rejection, hrun⟩

end Purge
end Lwm2mClient
