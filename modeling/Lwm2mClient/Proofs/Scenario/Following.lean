import Lwm2mClient.Proofs.Scenario.Silence
import Lwm2mClient.Proofs.Scenario.Views

/-!
Following programs piece by piece. One program after another is followed to where the
first pauses and from there on, and where nothing disturbs the store, the servers
found are those that it names.
-/
namespace Lwm2mClient.Scenario

open Net Program

variable {α β : Type} {engine : Option Nat} {w w' : World}

/-- A call that is answered is followed by what the program does with the answer. -/
theorem follow_of_ok {c : Call} {f : c.Answer → Program α} {a : c.Answer}
    (h : w.answer? engine c = some (w', .ok a)) (hacquire : c ≠ .acquire)
    (hrelease : c ≠ .release) : follow engine (.call c f) w = follow engine (f a) w' := by
  rw [World.follow_call hacquire hrelease, h]

/-- The pause of a program with another one after it, where the first did not end. -/
def Pause.andThen (p : Pause α) (f : α → Program β) (go : Program β → World × Pause β)
    (w : World) : World × Pause β :=
  match p with
  | .finished value => go (f value)
  | .failed fault => (w, .failed fault)
  | .asking c next => (w, .asking c fun a => next a >>= f)

theorem follow_bind (p : Program α) (f : α → Program β) (w : World) :
    follow engine (p >>= f) w =
      (follow engine p w).2.andThen f (follow engine · (follow engine p w).1)
        (follow engine p w).1 := by
  induction p generalizing w with
  | done value => rfl
  | call c next ih =>
    rw [call_bind]
    by_cases hacquire : c = .acquire
    · subst hacquire
      cases engine with
      | none => exact ih () w
      | some e =>
        simp only [follow]
        split
        · rfl
        · exact ih () _
    · by_cases hrelease : c = .release
      · subst hrelease
        cases engine with
        | none => exact ih () w
        | some e => exact ih () (w.release e)
      · rw [World.follow_call hacquire hrelease, World.follow_call hacquire hrelease]
        rcases w.answer? engine c with _ | ⟨w', fault | a⟩
        · rfl
        · rfl
        · exact ih a w'

/-- After a program that ends, the next one goes on. -/
theorem follow_bind_of_finished {p : Program α} {value : α}
    (h : follow engine p w = (w', .finished value)) (f : α → Program β) :
    follow engine (p >>= f) w = follow engine (f value) w' := by
  rw [follow_bind, h]
  rfl

namespace World

theorem report_of_quiet (h : w.level = none) (lines : List Log.Line) : w.report lines = w := by
  simp only [report, h]

theorem isReliable_of_plain (h : w.disturbance = {}) : w.IsReliable := by
  rw [IsReliable, h]
  exact ⟨rfl, rfl⟩

theorem isOnStore_of_isReading {c : Call} (h : c.isReading) : c.isOnStore := by
  cases c <;> first | exact trivial | exact absurd h id

/-- Where no access to the store fails, a program that reads comes to what it makes of
what there is to be seen. -/
theorem consult_of_isReliable {p : Program α} {hosts : Hosts} {value : α}
    (hasks : p.Asks Call.isReading fun _ => True)
    (hkeeps : p.Keeps (reflecting hosts) (fun reached _ => reached = value) w.view)
    (h : w.IsReliable) : (w.consult p).2 = .ok value := by
  obtain ⟨reached, hreached⟩ :=
    (consult_keeps (hasks.mono (fun _ => isOnStore_of_isReading) fun _ h => h) w).2 h
  have hwhole : w.consult p = ((w.consult p).1, .ok reached) := Prod.ext rfl hreached
  rw [hreached, consult_ok hkeeps hwhole]

/-- Where no access to the store fails, the servers found are those that the store names. -/
theorem consult_findServers_of_isReliable (h : w.IsReliable) (hosts : Hosts) :
    (w.consult (findServers hosts)).2 = .ok (w.view.servers? hosts) :=
  consult_of_isReliable (findServers_reads hosts) (Engine.keeps_findServers rfl) h

end World
end Lwm2mClient.Scenario
