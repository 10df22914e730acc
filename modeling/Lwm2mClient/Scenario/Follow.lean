import Lwm2mClient.Scenario.World

/-!
Following a program in the world of a scenario. Calls that concern the state alone are
answered one after the other, until the program ends, a call fails, or the program asks for
something that takes more than an answer. An engine is operated from the call that acquires it
to the call that releases it.
-/
namespace Lwm2mClient.Scenario

/-- How far a program was followed. -/
inductive Pause (α : Type) where
  | finished (value : α)
  | failed (fault : Fault)
  /-- It asks to send a request, to wait, or to operate an engine that is in use. -/
  | asking (c : Call) (next : c.Answer → Program α)

/-- Answers a call that concerns the state alone. -/
def World.answer? (w : World) (engine : Option Nat) :
    (c : Call) → Option (World × Except Fault c.Answer)
  | .objectIds => some (w, .ok w.store.objectIds)
  | .readObject object => some (w.readObject object)
  | .deleteInstance sender object i => some (w.deleteInstance sender object i)
  | .shutDownTimeline => none
  | c =>
    ((w.client engine).answer? (fun work => .work (engine.getD 0) work) c).map fun reply =>
      ((w.withClient engine reply.client).report reply.lines, .ok reply.answer)

/-- Follows a program for an engine, or for none. -/
def follow {α : Type} (engine : Option Nat) : Program α → World → World × Pause α
  | .done value, w => (w, .finished value)
  | .call .acquire next, w =>
    match engine with
    | some e =>
      if e ∈ w.busy then (w, .asking .acquire next)
      else follow engine (next ()) { w with busy := e :: w.busy }
    | none => follow engine (next ()) w
  | .call .release next, w =>
    match engine with
    | some e => follow engine (next ()) (w.release e)
    | none => follow engine (next ()) w
  | .call c next, w =>
    match w.answer? engine c with
    | some (w, .ok answer) => follow engine (next answer) w
    | some (w, .error fault) => (w, .failed fault)
    | none => (w, .asking c next)

end Lwm2mClient.Scenario
