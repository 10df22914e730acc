import Lwm2mClient.Proofs.Scenario.Veils
import Lwm2mClient.Proofs.Service.Bodies
import Lwm2mClient.Proofs.Service.Seats

/-!
The engine of a world as an engine in service. The client is the same, with tasks that are either
work of the engine or somebody else's. An operation that is followed in the world makes the calls
that it makes in service; what the store answers there, the service is answered from outside.
-/
namespace Lwm2mClient.Scenario

open Net Engine Program
open Service (Becomes Job)

/-- A task as a service of the first engine has it. -/
def Task.served : Task → Service.Task
  | .work 0 job => .work job
  | _ => .other

namespace World

variable {w w' w'' : World} {setup : Setup} {s : Service} {job : Job}

/-! ### What an engine goes by -/

/-- What there is of a world for its engines: nothing of the store, of the servers and of what was
noted. -/
def bare (w : World) : World :=
  { w with
    level := none, store := {}, disturbance := {}, scripts := [], asides := 0, elapsed := .zero
    ended := [], told := 0, sent := #[], deletions := #[], notes := #[], lines := #[] }

@[simp] theorem report_bare (w : World) (lines : List Log.Line) :
    (w.report lines).bare = w.bare := by
  unfold report
  split <;> rfl

@[simp] theorem readObject_bare (w : World) (object : NumericId) :
    (w.readObject object).1.bare = w.bare := by
  unfold readObject
  split
  · rfl
  · split
    · rfl
    · exact report_bare w _

@[simp] theorem deleteInstance_bare (w : World) (sender : SocketAddress)
    (object instanceId : NumericId) :
    (w.deleteInstance sender object instanceId).1.bare = w.bare := by
  unfold deleteInstance
  split
  · rfl
  · cases w.disturbance.deny with
    | some code => rfl
    | none =>
      change (w.removeInstance sender object instanceId).1.bare = w.bare
      unfold removeInstance
      split
      · exact report_bare _ _
      · rfl

/-! ### The engine in service -/

/-- The client as the first engine works on it. -/
def served (w : World) : Client Service.Task := (w.client (some 0)).map Task.served

/-- Where hosts are found, which engine is the current one, and the settings of all engines. -/
def post (w : World) : Hosts × Option Nat × Array Settings :=
  (w.hosts, w.current, w.engines.map (·.settings))

/-- One engine was made, with a setup, and it is the current one. -/
def IsMade (setup : Setup) (w : World) : Prop :=
  w.post = (setup.hosts, some 0, #[setup.settings])

/-- No engine but one with a setup was made, which is the current one then. -/
def IsHome (setup : Setup) (w : World) : Prop :=
  w.IsMade setup ∨ w.post = (setup.hosts, none, #[])

theorem served_of_bare (h : w'.bare = w.bare) : w'.served = w.served :=
  (congrArg served h : w'.bare.served = w.bare.served)

theorem post_of_bare (h : w'.bare = w.bare) : w'.post = w.post :=
  (congrArg post h : w'.bare.post = w.bare.post)

theorem busy_of_bare (h : w'.bare = w.bare) : w'.busy = w.busy :=
  (congrArg (·.busy) h : w'.bare.busy = w.bare.busy)

theorem IsHome.hosts_eq (h : w.IsHome setup) : w.hosts = setup.hosts := by
  rcases h with h | h <;> exact congrArg Prod.fst h

theorem IsMade.current_eq (h : w.IsMade setup) : w.current = some 0 :=
  congrArg (fun post => post.2.1) h

theorem IsHome.isMade {e : Nat} (h : w.IsHome setup) (hcurrent : w.current = some e) :
    e = 0 ∧ w.IsMade setup := by
  rcases h with hmade | hnone
  · cases hcurrent.symm.trans hmade.current_eq
    exact ⟨rfl, hmade⟩
  · cases hcurrent.symm.trans (congrArg (fun post => post.2.1) hnone)

theorem IsMade.settings_eq (h : w.IsMade setup) :
    w.engines.map (·.settings) = #[setup.settings] := congrArg (fun post => post.2.2) h

theorem IsMade.engine (h : w.IsMade setup) :
    ∃ registration, w.engine? 0 = some ⟨setup.settings, registration⟩ := by
  have hfirst : (w.engines.map (·.settings))[0]? = some setup.settings := by
    rw [h.settings_eq]
    rfl
  rw [Array.getElem?_map] at hfirst
  obtain ⟨⟨settings, registration⟩, hengine, rfl⟩ := Option.map_eq_some_iff.mp hfirst
  exact ⟨registration, hengine⟩

/-- There is no second engine. -/
theorem IsHome.engine?_succ (h : w.IsHome setup) (e : Nat) : w.engine? (e + 1) = none := by
  have hsettings : (w.engines.map (·.settings))[e + 1]? = none := by
    rcases h with hmade | hnone
    · rw [hmade.settings_eq]
      rfl
    · have hempty : w.engines.map (·.settings) = #[] := congrArg (fun post => post.2.2) hnone
      rw [hempty]
      rfl
  rw [Array.getElem?_map] at hsettings
  exact Option.map_eq_none_iff.mp hsettings

theorem IsHome.setup_eq (h : w.IsHome setup) : w.setup setup.settings = setup := by
  rw [World.setup, h.hosts_eq]

@[simp] theorem withClient_post (w : World) (engine : Option Nat) (c : Client Task) :
    (w.withClient engine c).post = w.post := by
  cases engine with
  | none => rfl
  | some e =>
    have hsettings :
        (w.engines.modify e fun s => { s with registration := c.registration }).map
          (·.settings) = w.engines.map (·.settings) := by
      apply Array.ext_getElem?
      intro i
      rw [Array.getElem?_map, Array.getElem?_modify, Array.getElem?_map]
      split
      · rw [Option.map_map]
        rfl
      · rfl
    exact congrArg (fun settings => (w.hosts, w.current, settings)) hsettings

/-- Where the engine is, the client is what it was left in. -/
theorem withClient_served (h : w.IsMade setup) (c : Client Task) :
    (w.withClient (some 0) c).served = c.map Task.served := by
  obtain ⟨registration, hengine⟩ := h.engine
  have hleft : (w.withClient (some 0) c).engine? 0 = some ⟨setup.settings, c.registration⟩ := by
    change (w.engines.modify 0 _)[0]? = _
    rw [Array.getElem?_modify, if_pos rfl]
    change (w.engine? 0).map _ = _
    rw [hengine]
    rfl
  have hclient : (w.withClient (some 0) c).client (some 0) = c := by
    rw [client, Option.bind_some, hleft]
    rfl
  rw [served, hclient]

/-- Threads, the handles of named tasks and the engines as such are left alone. -/
structure Stays (w w' : World) : Prop where
  threads : w'.threads = w.threads
  handles : w'.handles = w.handles
  post : w'.post = w.post

theorem Stays.refl (w : World) : w.Stays w := ⟨rfl, rfl, rfl⟩

theorem Stays.trans (h : w.Stays w') (h' : w'.Stays w'') : w.Stays w'' :=
  ⟨h'.threads.trans h.threads, h'.handles.trans h.handles, h'.post.trans h.post⟩

theorem Stays.of_bare (h : w'.bare = w.bare) : w.Stays w' :=
  ⟨congrArg (·.threads) h, congrArg (·.handles) h, post_of_bare h⟩

theorem Stays.isMade (h : w.Stays w') (hmade : w.IsMade setup) : w'.IsMade setup :=
  h.post.trans hmade

/-- A call that the client answers is answered in service as in the world. -/
theorem answer?_of_served {c : Call} {reply : Client.Reply Service.Task c.Answer}
    (h : w.IsMade setup) (hreply : w.served.answer? .work c = some reply)
    (hopen : c ≠ .shutDownTimeline) :
    ∃ w', w.answer? (some 0) c = some (w', .ok reply.answer) ∧ w'.served = reply.client ∧
      w.Stays w' ∧ w'.busy = w.busy := by
  have hmap := (w.client (some 0)).answer?_map Task.served (fun work => .work 0 work) c
  obtain ⟨own, hown, hsame⟩ := Option.map_eq_some_iff.mp (hmap.symm.trans hreply)
  let left := w.withClient (some 0) own.client
  have hleft : w.Stays left := ⟨rfl, rfl, withClient_post w (some 0) own.client⟩
  have hbare := report_bare left own.lines
  refine ⟨left.report own.lines, ?_, ?_, hleft.trans (.of_bare hbare), ?_⟩
  · have hanswer : ((w.client (some 0)).answer? (fun work => .work 0 work) c).map (fun reply =>
          ((w.withClient (some 0) reply.client).report reply.lines,
            (.ok reply.answer : Except Fault c.Answer))) =
        some (left.report own.lines, .ok reply.answer) := by
      rw [hown, ← hsame]
      rfl
    cases c with
    | shutDownTimeline => exact absurd rfl hopen
    | objectIds | readObject | deleteInstance => cases hown
    | _ => exact hanswer
  · rw [served_of_bare hbare, withClient_served h, ← hsame]
    rfl
  · exact (busy_of_bare hbare : (left.report own.lines).busy = left.busy)

end World
end Lwm2mClient.Scenario
