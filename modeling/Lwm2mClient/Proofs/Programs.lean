import Lwm2mClient.Program

/-!
What a program may ask for, whatever it is answered.
-/
namespace Lwm2mClient.Program

variable {α β : Type} {calls calls' : Call → Prop}

/-- Whatever the answers are, a program makes only calls of one kind, and it is done with
a value as `post` demands. -/
def Asks (calls : Call → Prop) : Program α → (α → Prop) → Prop
  | .done value, post => post value
  | .call c next, post => calls c ∧ ∀ a, Asks calls (next a) post

namespace Asks

theorem mono {p : Program α} {post post' : α → Prop} (h : p.Asks calls post)
    (hcalls : ∀ c, calls c → calls' c) (hpost : ∀ v, post v → post' v) : p.Asks calls' post' := by
  induction p with
  | done value => exact hpost value h
  | call c next ih => exact ⟨hcalls c h.1, fun a => ih a (h.2 a)⟩

theorem and {p : Program α} {post post' : α → Prop} (h : p.Asks calls post)
    (h' : p.Asks calls' post') :
    p.Asks (fun c => calls c ∧ calls' c) fun v => post v ∧ post' v := by
  induction p with
  | done value => exact ⟨h, h'⟩
  | call c next ih => exact ⟨⟨h.1, h'.1⟩, fun a => ih a (h.2 a) (h'.2 a)⟩

theorem bind {p : Program α} {f : α → Program β} {mid : α → Prop} {post : β → Prop}
    (h : p.Asks calls mid) (hf : ∀ v, mid v → (f v).Asks calls post) :
    (p >>= f).Asks calls post := by
  induction p with
  | done value => exact hf value h
  | call c next ih => exact ⟨h.1, fun a => ih a (h.2 a)⟩

theorem perform {c : Call} (hc : calls c) : (Program.perform c).Asks calls fun _ => True :=
  ⟨hc, fun _ => trivial⟩

theorem log {line : Log.Line} (hline : calls (.log line)) :
    (Program.log line).Asks calls fun _ => True :=
  perform hline

theorem logAll {lines : List Log.Line} (hlines : ∀ line ∈ lines, calls (.log line)) :
    (Program.logAll lines).Asks calls fun _ => True := by
  induction lines with
  | nil => exact trivial
  | cons line rest ih =>
    refine bind (log (hlines line List.mem_cons_self)) ?_
    intro _ _
    exact ih fun line' h => hlines line' (List.mem_cons_of_mem line h)

end Asks

end Lwm2mClient.Program
