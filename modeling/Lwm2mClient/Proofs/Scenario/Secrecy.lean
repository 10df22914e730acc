import Lwm2mClient.Proofs.Scenario.VeiledThreads

/-!
Keys do not influence what a client does. Two scenarios that differ in nothing but the secret keys
and server public keys that are put into the store are told in the same way, but for what those
steps find that ask for a key: the same requests, deletions, results and lines, with the client in
the same state and the same tasks due at the same times.
-/
namespace Lwm2mClient

open Scenario

/-- A scenario without the keys that its steps put into the store. -/
def Scenario.veil (s : Scenario) : Scenario :=
  { s with
    scripts := veilScripts s.scripts
    preparation := veilSteps s.preparation
    steps := veilSteps s.steps }

namespace Scenario

/-- What is told of a step without keys. Only what is found by asking for a key can be hidden by
that: the requests, the deletions, the lines and the state of the client are all there. -/
def Report.veil (r : Report) : Report :=
  { r with
    result := r.result.veil
    sent := r.sent.map SentRequest.veil
    tasks := r.tasks.map TaskNote.veil
    asides := r.asides.map Result.veil }

@[simp] theorem Step.isLook_veil (s : Step) : s.veil.isLook = s.isLook := by
  cases s <;> rfl

theorem Effect.veil_eq_result {e : Effect} {value : Result} :
    e.veil = .result value ↔ e = .result value := by
  cases e <;> simp [Effect.veil]

theorem Effect.veil_eq_failed {e : Effect} {fault : Fault} :
    e.veil = .failed fault ↔ e = .failed fault := by
  cases e <;> simp [Effect.veil]

namespace World

/-- Two worlds that differ in nothing but keys. Whatever was noted in them is the same,
and so is all that decides how the client goes on; a step that does not ask for a key
has the same result in both. -/
structure IsAlike (w w' : World) : Prop where
  store : w.store.veil = w'.store.veil
  /-- The requests, each with the lifecycle and the registration at the time when it was sent. -/
  requests : (w.sent.map fun x => { x with steps := [] }) = w'.sent.map fun x =>
    { x with steps := [] }
  deletions : w.deletions = w'.deletions
  lines : w.lines = w'.lines
  /-- The engines, each with its lifecycle and the id of its registration. -/
  engines : w.engines = w'.engines
  current : w.current = w'.current
  gate : w.gate = w'.gate
  handles : w.handles = w'.handles
  /-- The clock, and which tasks are due when. -/
  scheduler : (w.scheduler.map fun _ => ()) = w'.scheduler.map fun _ => ()
  results : ∀ s s' : Step, s.veil = s'.veil → s.isLook = false →
    ∀ value, (w.take s).2 = .result value ↔ (w'.take s').2 = .result value
  failures : ∀ s s' : Step, s.veil = s'.veil → s.isLook = false →
    ∀ fault, (w.take s).2 = .failed fault ↔ (w'.take s').2 = .failed fault

theorem take_veil_eq {w w' : World} (h : w.veil = w'.veil) {s s' : Step} (hs : s.veil = s'.veil)
    (hlook : s.isLook = false) : (w.take s).2.veil = (w'.take s').2.veil := by
  have hlook' : s'.isLook = false := by rw [← Step.isLook_veil, ← hs, Step.isLook_veil, hlook]
  have htake := congrArg Prod.snd (take_veil w hlook)
  have htake' := congrArg Prod.snd (take_veil w' hlook')
  rw [h, hs] at htake
  exact htake.symm.trans htake'

theorem isAlike_of_veil_eq {w w' : World} (h : w.veil = w'.veil) : w.IsAlike w' where
  store := congrArg World.store h
  requests := by
    have hsent : w.sent.map SentRequest.veil = w'.sent.map SentRequest.veil :=
      congrArg World.sent h
    have hplain := congrArg (Array.map fun x : SentRequest => { x with steps := [] }) hsent
    rw [Array.map_map, Array.map_map] at hplain
    exact hplain
  deletions := congrArg (·.deletions) h
  lines := congrArg (·.lines) h
  engines := congrArg (·.engines) h
  current := congrArg (·.current) h
  gate := congrArg (·.gate) h
  handles := congrArg (·.handles) h
  scheduler := by
    have hscheduler : w.scheduler.map Task.veil = w'.scheduler.map Task.veil :=
      congrArg World.scheduler h
    have hdue := congrArg (Scheduler.map fun _ => ()) hscheduler
    rw [Scheduler.map_map, Scheduler.map_map] at hdue
    exact hdue
  results s s' hs hlook value := by
    rw [← Effect.veil_eq_result, take_veil_eq h hs hlook, Effect.veil_eq_result]
  failures s s' hs hlook fault := by
    rw [← Effect.veil_eq_failed, take_veil_eq h hs hlook, Effect.veil_eq_failed]

/-! ### What is told -/

variable (w : World)

@[simp] theorem isJoined_veil : w.veil.isJoined = w.isJoined := List.all_map

@[simp] theorem isStuck_veil : w.veil.isStuck = w.isStuck := by
  unfold isStuck
  change (w.threads.map Thread.veil).all _ = _
  simp only [List.all_map, Function.comp_def, isBlocked_veil, wake?_veil]

@[simp] theorem isSettled_veil : w.veil.isSettled = w.isSettled := by
  unfold isSettled
  change (w.threads.map Thread.veil).all _ = _
  rw [List.all_map]
  congr 1
  funext t
  simp only [Function.comp, isBlocked_veil]
  obtain ⟨role, _ | ⟨frame, rest⟩⟩ := t
  · rfl
  · cases frame <;> rfl

theorem lookup_veil (ended : List (Role × Result)) (role : Role) :
    (ended.map fun e => (e.1, e.2.veil)).lookup role = (ended.lookup role).map Result.veil := by
  induction ended with
  | nil => rfl
  | cons e rest ih =>
    obtain ⟨role', result⟩ := e
    cases hrole :
      role == role' <;> simp only [List.map_cons, List.lookup_cons, hrole, ih, Option.map_some]

theorem stepResult_veil : w.veil.stepResult = w.stepResult.veil := by
  have hended : w.veil.ended.lookup .main = (w.ended.lookup .main).map Result.veil :=
    lookup_veil w.ended .main
  simp only [stepResult, hended, isStuck_veil]
  generalize w.ended.lookup .main = found
  cases found with
  | none => rfl
  | some r =>
    cases r with
    | list values => rcases values with _ | ⟨r, _ | ⟨r', rest⟩⟩ <;> rfl
    | _ => rfl

/-- The result of a thread that worked aside, with its number. -/
def numbered? : Role × Result → Option (Nat × Result)
  | (.aside number, result) => some (number, result)
  | _ => none

theorem asideResults_eq :
    w.asideResults =
      ((w.ended.filterMap numbered?).mergeSort fun a b => a.1 ≤ b.1).map (·.2) := by
  change ((w.ended.filterMap _).mergeSort fun (a b : Nat × Result) => a.1 ≤ b.1).map Prod.snd = _
  congr 3
  funext ⟨role, result⟩
  cases role <;> rfl

theorem asideResults_veil : w.veil.asideResults = w.asideResults.map Result.veil := by
  have hnumbered : w.veil.ended.filterMap numbered? =
      (w.ended.filterMap numbered?).map fun e => (e.1, e.2.veil) := by
    change (w.ended.map fun e => (e.1, e.2.veil)).filterMap numbered? = _
    rw [List.filterMap_map, List.map_filterMap]
    congr 1
    funext ⟨role, result⟩
    cases role <;> rfl
  have hsorted := List.map_mergeSort (f := fun e : Nat × Result => (e.1, e.2.veil))
    (r := fun a b => decide (a.1 ≤ b.1)) (s := fun a b => decide (a.1 ≤ b.1))
    (l := w.ended.filterMap numbered?) fun _ _ _ _ => rfl
  rw [asideResults_eq, asideResults_eq, hnumbered, ← hsorted, List.map_map, List.map_map]
  rfl

theorem snapshot_veil : w.veil.snapshot = w.snapshot := by
  simp only [snapshot, veil_registration?, veil_gate, veil_scheduler, Scheduler.now?_map,
    Scheduler.pending?_map]

variable {w} {w' : World} {moves : Nat}

theorem runUntil_leaves {P : Program Bool → Prop} (hP : Lasts P) (stop : World → Bool) (n : Nat)
    (h : w.Leaves P) : (runUntil stop n w).Leaves P := by
  obtain ⟨happenings, hrun⟩ := runUntil_after stop n w
  rw [hrun]
  exact h.after hP happenings

theorem runUntil_alike {stop : World → Bool} (hstop : ∀ w : World, stop w.veil = stop w) (n : Nat)
    (h : w.veil = w'.veil) (hw : w.Leaves Program.IsBlind) (hw' : w'.Leaves Program.IsBlind) :
    (runUntil stop n w).veil = (runUntil stop n w').veil := by
  induction n generalizing w w' with
  | zero => exact h
  | succ n ih =>
    have hends : (stop w || w.isStuck) = (stop w' || w'.isStuck) := by
      rw [← hstop w, ← hstop w', ← isStuck_veil w, ← isStuck_veil w', h]
    simp only [runUntil, hends]
    split
    · exact h
    · exact ih (tick_alike h hw hw') (hw.tick isBlind_lasts) (hw'.tick isBlind_lasts)

/-- What is told of a step, given the world in which its threads ended and the one in
which the worker is done. -/
def tells (ended settled : World) : Report where
  result := ended.stepResult
  sent := settled.sent.toList
  deletions := settled.deletions.toList
  tasks := settled.notes.toList
  asides := ended.asideResults
  lines := settled.lines.toList
  snapshot := settled.snapshot

theorem tells_veil (ended settled : World) :
    (tells ended settled).veil = tells ended.veil settled.veil := by
  have hsent : settled.veil.sent.toList = settled.sent.toList.map SentRequest.veil :=
    Array.toList_map
  have hnotes : settled.veil.notes.toList = settled.notes.toList.map TaskNote.veil :=
    Array.toList_map
  simp only [tells, Report.veil, stepResult_veil, asideResults_veil, snapshot_veil, hsent, hnotes]
  rfl

theorem tell_alike (moves : Nat) {s s' : Step} (h : w.veil = w'.veil) (hs : s.veil = s'.veil)
    (hw : w.Leaves Program.IsBlind) (hw' : w'.Leaves Program.IsBlind) :
    (w.tell moves s).1.veil = (w'.tell moves s').1.veil ∧
    (w.tell moves s).2.veil = (w'.tell moves s').2.veil := by
  have hbegins : (Happening.begin s).veil = (Happening.begin s').veil :=
    congrArg Happening.begin hs
  have hjoins : Happening.join.veil = Happening.join.veil := rfl
  have hbegun := hw.happen isBlind_lasts (.begin s)
  have hbegun' := hw'.happen isBlind_lasts (.begin s')
  have hended := runUntil_alike isJoined_veil moves (happen_alike h hbegins hw hw') hbegun hbegun'
  have hjoined := (runUntil_leaves isBlind_lasts isJoined moves hbegun).happen isBlind_lasts .join
  have hjoined' :=
    (runUntil_leaves isBlind_lasts isJoined moves hbegun').happen isBlind_lasts .join
  have hsettled := runUntil_alike isSettled_veil moves
    (happen_alike hended hjoins (runUntil_leaves isBlind_lasts isJoined moves hbegun)
      (runUntil_leaves isBlind_lasts isJoined moves hbegun')) hjoined hjoined'
  have htells : (w.tell moves s).2 = tells (runUntil isJoined moves (w.happen (.begin s)))
      (runUntil isSettled moves ((runUntil isJoined moves (w.happen (.begin s))).happen .join)) :=
    rfl
  have htells' : (w'.tell moves s').2 = tells (runUntil isJoined moves (w'.happen (.begin s')))
      (runUntil isSettled moves
        ((runUntil isJoined moves (w'.happen (.begin s'))).happen .join)) := rfl
  constructor
  · have htold : ∀ w : World, w.clearNotes.veil = w.veil.clearNotes :=
      fun w => happen_veil w (nofun : Happening.told ≠ .tick)
    exact (htold _).trans ((congrArg clearNotes hsettled).trans (htold _).symm)
  · rw [htells, htells', tells_veil, tells_veil, hended, hsettled]

theorem tell_leaves {P : Program Bool → Prop} (hP : Lasts P) (h : w.Leaves P) (s : Step) :
    (w.tell moves s).1.Leaves P := by
  obtain ⟨happenings, hrun⟩ := tell_after moves w s
  rw [hrun]
  exact h.after hP happenings

theorem tellAll_leaves {P : Program Bool → Prop} (hP : Lasts P) (h : w.Leaves P)
    (steps : List Step) : (w.tellAll moves steps).1.Leaves P := by
  obtain ⟨happenings, hrun⟩ := tellAll_after moves w steps
  rw [hrun]
  exact h.after hP happenings

theorem tellAll_alike (moves : Nat) {steps steps' : List Step} (h : w.veil = w'.veil)
    (hsteps : steps.map Step.veil = steps'.map Step.veil) (hw : w.Leaves Program.IsBlind)
    (hw' : w'.Leaves Program.IsBlind) :
    (w.tellAll moves steps).1.veil = (w'.tellAll moves steps').1.veil ∧
      (w.tellAll moves steps).2.map Report.veil =
        (w'.tellAll moves steps').2.map Report.veil := by
  induction steps generalizing w w' steps' with
  | nil =>
    obtain rfl := List.map_eq_nil_iff.mp hsteps.symm
    exact ⟨h, rfl⟩
  | cons s rest ih =>
    obtain ⟨s', rest', rfl, hs, hrest⟩ := List.map_eq_cons_iff.mp hsteps.symm
    obtain ⟨hworld, hreport⟩ := tell_alike moves h hs.symm hw hw'
    obtain ⟨hlast, hreports⟩ :=
      ih hworld hrest.symm (tell_leaves isBlind_lasts hw s) (tell_leaves isBlind_lasts hw' s')
    exact ⟨hlast, List.cons_eq_cons.mpr ⟨hreport, hreports⟩⟩

/-! ### Scenarios -/

theorem initial_veil (s : Scenario) : s.veil.initial = s.initial.veil := by
  obtain ⟨hosts, onWorker, level, scripts, preparation, steps⟩ := s
  cases onWorker <;> simp only [Scenario.initial, Scenario.veil, World.veil,
    Array.map_empty] <;> rfl

/-- Two clients are run through the same scenario, but for the keys that are put into their
stores. Whatever is asked of them, the same is told of both: the results, unless a key was asked
for, the requests and deletions, the lines at the level of the scenario, and the state of the
client. At every moment in between the two worlds differ in nothing but keys, and each step that
does not ask for a key has the same result in both. -/
theorem tells_nothing_of_keys {s s' : Scenario} (h : s.veil = s'.veil) :
    (∀ moves, (s.reports moves).map Report.veil = (s'.reports moves).map Report.veil) ∧
      ∀ happenings happenings' : List Happening,
        happenings.map Happening.veil = happenings'.map Happening.veil →
          (s.initial.after happenings).IsAlike (s'.initial.after happenings') := by
  have hinitial : s.initial.veil = s'.initial.veil := by rw [← initial_veil, ← initial_veil, h]
  have hblind := initial_leaves Program.IsBlind s
  have hblind' := initial_leaves Program.IsBlind s'
  have hprepared : s.preparation.map Step.veil = s'.preparation.map Step.veil := by
    rw [← veilSteps_eq_map, ← veilSteps_eq_map]
    exact congrArg Scenario.preparation h
  have hsteps : s.steps.map Step.veil = s'.steps.map Step.veil := by
    rw [← veilSteps_eq_map, ← veilSteps_eq_map]
    exact congrArg Scenario.steps h
  constructor
  · intro moves
    have hready := (tellAll_alike moves hinitial hprepared hblind hblind').1
    exact (tellAll_alike moves hready hsteps (tellAll_leaves isBlind_lasts hblind _)
      (tellAll_leaves isBlind_lasts hblind' _)).2
  · intro happenings happenings' hhappenings
    exact isAlike_of_veil_eq (after_alike hinitial hhappenings hblind hblind')

/-- A client is provisioned with a pre-shared key and registers. Then it is asked for the identity
to present to the server, and for the key of that identity. -/
def keyed (key : Bytes) : Scenario :=
  { level := some .trace
    scripts := [(.register, [.mk (some ⟨.created, some "/rd/5"⟩) [] false 1])]
    preparation :=
      [.putSecurity 0 (.preSharedKey "coaps://10.0.0.1" 1 [105] key), .putServer 0 ⟨1, 60, "U"⟩]
    steps :=
      [.makeEngine [], .operate .register,
        .identityFor ⟨.v4 #v[10, 0, 0, 1], 5684, 0⟩, .keyOf [105]] }

/-- The client is asked to register. -/
def askedToRegister (key : Bytes) : List Happening :=
  [.begin (.putSecurity 0 (.preSharedKey "coaps://10.0.0.1" 1 [105] key)), .tick, .tick,
    .begin (.putServer 0 ⟨1, 60, "U"⟩), .tick, .tick, .begin (.makeEngine []), .tick, .tick,
    .begin (.operate .register), .tick, .tick]

theorem tells_nothing_of_two_keys :
    (keyed [1]).veil = (keyed [2]).veil ∧
      ((keyed [1]).reports 60).map Report.veil = ((keyed [2]).reports 60).map Report.veil ∧
      ((keyed [1]).initial.after (askedToRegister [1])).IsAlike
        ((keyed [2]).initial.after (askedToRegister [2])) ∧
      ((keyed [1]).reports 60).map (fun r => r.sent.length) = [0, 1, 0, 0] ∧
      ((keyed [1]).reports 60).getLast?.any (fun r => r.result matches .bytes (some [1])) = true ∧
      ((keyed [2]).reports 60).getLast?.any
        (fun r => r.result matches .bytes (some [2])) = true := by
  have hsame : (keyed [1]).veil = (keyed [2]).veil := rfl
  obtain ⟨hreports, hmoments⟩ := tells_nothing_of_keys hsame
  exact ⟨hsame, hreports 60, hmoments _ _ rfl,
    by decide +kernel, by decide +kernel, by decide +kernel⟩

end World
end Scenario
end Lwm2mClient
