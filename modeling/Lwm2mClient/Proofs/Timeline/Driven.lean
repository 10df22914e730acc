import Lwm2mClient.Proofs.Timeline.Ordering

/-!
A timeline that one thread drives. The thread hands tasks over, cancels them, shuts the timeline
down and moves the clock; a move of the clock starts every task that falls due meanwhile, and a
task that was started may do all of this too, moving the clock among it. So moves of the clock are
nested, each with the task that it has started last. What a task does is left open, and it may
fail, which ends it but not the move that it was started by.
-/
namespace Lwm2mClient

namespace Timeline.Driven

/-- A move of the clock that has not come to its end. -/
structure Move where
  target : Duration
  /-- How many of the tasks that it started have ended. -/
  started : Nat := 0
  /-- Whether the task that it started last has not ended. -/
  busy : Bool := false

inductive Event (τ : Type) where
  | handedOver (delay : Duration) (task : τ) (handle : TaskHandle)
  | cancelled (handle : TaskHandle)
  /-- The timeline was shut down, and dropped the tasks that waited. -/
  | shutDown (dropped : List (Entry τ))
  /-- A move of the clock by a span has begun. -/
  | called (span : Duration)
  /-- The clock cannot be moved that far, and the call has failed. -/
  | overflowed (span : Duration)
  | started (entry : Entry τ)
  /-- The task that was started last has ended, or has failed. -/
  | ended (failed : Bool)
  /-- A move of the clock has come to its end, and tells how many tasks it started. -/
  | returned (started : Nat)

/-- An event, and what the clock showed then. -/
structure Note (τ : Type) where
  clock : Duration
  event : Event τ

inductive Input (τ : Type) where
  | schedule (delay : Duration) (task : τ)
  | cancel (handle : TaskHandle)
  | shutdown
  /-- The clock is to be moved by a span. A span of zero lets run what is due now. -/
  | advance (span : Duration)
  /-- The innermost move starts the next task that is due, or comes to its end. -/
  | goOn
  /-- The task in progress ends, or fails. -/
  | finish (failed : Bool)

end Timeline.Driven

open Timeline.Driven in
/-- A timeline with the moves of its clock in progress, the innermost first, and what has
happened, the latest first. -/
structure Timeline.Driven (τ : Type) where
  timeline : Timeline τ := {}
  moves : List Move := []
  history : List (Note τ) := []

namespace Timeline

/-- Whether a handle was given to somebody. -/
def hasGiven {τ : Type} (t : Timeline τ) : TaskHandle → Bool
  | .refused => true
  | .accepted number => number ≤ t.accepted

namespace Driven

variable {τ : Type} {d d' : Driven τ}

/-- Whether the host, or the task that was started last, is free to do something. -/
def isFree (d : Driven τ) : Bool := d.moves.head?.all (·.busy)

def note (d : Driven τ) (event : Event τ) : Driven τ :=
  { d with history := ⟨d.timeline.now, event⟩ :: d.history }

/-- What an input leads to, if it is possible. -/
def step (d : Driven τ) : Input τ → Option (Driven τ)
  | .schedule delay task =>
    if d.isFree then
      let (handle, timeline) := d.timeline.schedule delay task
      some ({ d with timeline := timeline }.note (.handedOver delay task handle))
    else none
  | .cancel handle =>
    if d.isFree && d.timeline.hasGiven handle then
      some ({ d with timeline := d.timeline.cancel handle }.note (.cancelled handle))
    else none
  | .shutdown =>
    if d.isFree then
      some ({ d with timeline := d.timeline.shutdown }.note (.shutDown d.timeline.queue))
    else none
  | .advance span =>
    if d.isFree then
      match d.timeline.now.add? span with
      | some target => some ({ d with moves := { target } :: d.moves }.note (.called span))
      | none => some (d.note (.overflowed span))
    else none
  | .goOn =>
    match d.moves with
    | m :: outer =>
      if m.busy then none
      else
        match d.timeline.takeDue? m.target with
        | some (e, timeline) =>
          some ({ d with timeline := timeline, moves := { m with busy := true } :: outer }.note
            (.started e))
        | none =>
          some ({ d with timeline := d.timeline.settle m.target, moves := outer }.note
            (.returned m.started))
    | [] => none
  | .finish failed =>
    match d.moves with
    | m :: outer =>
      if m.busy then
        some ({ d with moves := { m with busy := false, started := m.started + 1 } :: outer }.note
          (.ended failed))
      else none
    | [] => none

/-- What a sequence of inputs leads to, if each of them is possible. -/
def run (d : Driven τ) : List (Input τ) → Option (Driven τ)
  | [] => some d
  | input :: rest => (d.step input).bind fun d => run d rest

/-! ### What a step can do -/

/-- The entry under which a timeline accepts a task now. -/
def entry (d : Driven τ) (delay : Duration) (task : τ) : Entry τ :=
  ⟨d.timeline.now.saturatingAdd delay, d.timeline.accepted + 1, task⟩

/-- What a step can lead to, and when. -/
inductive Goes (d : Driven τ) : Input τ → Driven τ → Prop where
  | refuses (delay : Duration) (task : τ) (hshut : d.timeline.shutDown = true) :
    Goes d (.schedule delay task) (d.note (.handedOver delay task .refused))
  | accepts (delay : Duration) (task : τ) (hopen : d.timeline.shutDown = false) :
    Goes d (.schedule delay task)
      ({ d with
          timeline :=
            { d.timeline with
              accepted := d.timeline.accepted + 1
              queue := enqueue (d.entry delay task) d.timeline.queue } }.note
        (.handedOver delay task (.accepted (d.timeline.accepted + 1))))
  | cancelsNone : Goes d (.cancel .refused) (d.note (.cancelled .refused))
  | cancels (number : Nat) (hgiven : number ≤ d.timeline.accepted) :
    Goes d (.cancel (.accepted number))
      ({ d with timeline := d.timeline.cancel (.accepted number) }.note
        (.cancelled (.accepted number)))
  | shutsDown :
    Goes d .shutdown
      ({ d with timeline := d.timeline.shutdown }.note (.shutDown d.timeline.queue))
  | calls (span target : Duration) (htarget : d.timeline.now.add? span = some target) :
    Goes d (.advance span) ({ d with moves := { target } :: d.moves }.note (.called span))
  | overflows (span : Duration) (htarget : d.timeline.now.add? span = none) :
    Goes d (.advance span) (d.note (.overflowed span))
  | starts (m : Move) (outer : List Move) (e : Entry τ) (t : Timeline τ)
      (hmoves : d.moves = m :: outer) (hidle : m.busy = false)
      (htake : d.timeline.takeDue? m.target = some (e, t)) :
    Goes d .goOn
      ({ d with timeline := t, moves := { m with busy := true } :: outer }.note (.started e))
  | returns (m : Move) (outer : List Move) (hmoves : d.moves = m :: outer)
    (hidle : m.busy = false)
      (hnone : d.timeline.takeDue? m.target = none) :
    Goes d .goOn
      ({ d with timeline := d.timeline.settle m.target, moves := outer }.note
        (.returned m.started))
  | ends (m : Move) (outer : List Move) (failed : Bool) (hmoves : d.moves = m :: outer)
      (hbusy : m.busy = true) :
    Goes d (.finish failed)
      ({ d with moves := { m with busy := false, started := m.started + 1 } :: outer }.note
        (.ended failed))

theorem goes_of_step {input : Input τ} (h : d.step input = some d') : d.Goes input d' := by
  cases input with
  | schedule delay task =>
    simp only [step] at h
    split at h
    · cases hshut : d.timeline.shutDown with
      | true =>
        have hrefused : d.timeline.schedule delay task = (.refused, d.timeline) := if_pos hshut
        rw [hrefused] at h
        cases h
        exact .refuses delay task hshut
      | false =>
        have haccepted : d.timeline.schedule delay task =
            (.accepted (d.timeline.accepted + 1),
              { d.timeline with
                accepted := d.timeline.accepted + 1
                queue := enqueue (d.entry delay task) d.timeline.queue }) :=
          if_neg (Bool.eq_false_iff.mp hshut)
        rw [haccepted] at h
        cases h
        exact .accepts delay task hshut
    · cases h
  | cancel handle =>
    simp only [step] at h
    split at h
    · rename_i hfree
      cases h
      cases handle with
      | refused => exact .cancelsNone
      | accepted number =>
        exact .cancels number (of_decide_eq_true (Bool.and_eq_true_iff.mp hfree).2)
    · cases h
  | shutdown =>
    simp only [step] at h
    split at h
    · cases h
      exact .shutsDown
    · cases h
  | advance span =>
    simp only [step] at h
    split at h
    · split at h
      · cases h
        exact .calls span _ ‹_›
      · cases h
        exact .overflows span ‹_›
    · cases h
  | goOn =>
    simp only [step] at h
    split at h
    · rename_i m outer hmoves
      split at h
      · cases h
      · rename_i hidle
        split at h
        · cases h
          exact .starts m outer _ _ hmoves (Bool.eq_false_iff.mpr hidle) ‹_›
        · cases h
          exact .returns m outer hmoves (Bool.eq_false_iff.mpr hidle) ‹_›
    · cases h
  | finish failed =>
    simp only [step] at h
    split at h
    · rename_i m outer hmoves
      split at h
      · rename_i hbusy
        cases h
        exact .ends m outer failed hmoves hbusy
      · cases h
    · cases h

/-- What every step of a run keeps, the run keeps. -/
theorem run_induction {P : Driven τ → Prop} {inputs : List (Input τ)}
    (hstep : ∀ d input d', input ∈ inputs → P d → d.Goes input d' → P d') (hd : P d)
    (hrun : run d inputs = some d') : P d' := by
  induction inputs generalizing d with
  | nil => exact Option.some.inj hrun ▸ hd
  | cons input rest ih =>
    obtain ⟨mid, hmid, hrest⟩ := Option.bind_eq_some_iff.mp hrun
    refine ih (fun d i d' hi => hstep d i d' (List.mem_cons_of_mem input hi)) ?_ hrest
    exact hstep d input mid List.mem_cons_self hd (goes_of_step hmid)

end Driven
end Timeline
end Lwm2mClient
