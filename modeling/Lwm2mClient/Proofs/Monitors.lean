import Lwm2mClient.Proofs.Programs

/-!
Monitors of programs. A monitor has a state beside a program: it permits some calls in a state and
not others, and a call with its answer may move it. A program keeps to a monitor if it never makes
a call that is not permitted, however its calls are answered.
-/
namespace Lwm2mClient

structure Monitor (σ : Type) where
  /-- The calls that may be made in a state. -/
  permits : σ → Call → Prop
  /-- The states that a call and its answer may lead to; there is none where the
  call is never answered so. -/
  moves : σ → (c : Call) → c.Answer → σ → Prop

namespace Program

variable {σ α β : Type} {m : Monitor σ} {s : σ}

/-- A program makes only calls that a monitor permits, and where it is done `post` holds. -/
def Keeps (m : Monitor σ) : Program α → (α → σ → Prop) → σ → Prop
  | .done value, post, s => post value s
  | .call c next, post, s => m.permits s c ∧ ∀ a s', m.moves s c a s' → Keeps m (next a) post s'

namespace Keeps

theorem bind {p : Program α} {f : α → Program β} {post : β → σ → Prop}
    (h : p.Keeps m (fun v s' => (f v).Keeps m post s') s) : (p >>= f).Keeps m post s := by
  induction p generalizing s with
  | done value => exact h
  | call c next ih => exact ⟨h.1, fun a s' hmove => ih a (h.2 a s' hmove)⟩

theorem mono {p : Program α} {post post' : α → σ → Prop} (h : p.Keeps m post s)
    (hpost : ∀ v s', post v s' → post' v s') : p.Keeps m post' s := by
  induction p generalizing s with
  | done value => exact hpost value s h
  | call c next ih => exact ⟨h.1, fun a s' hmove => ih a (h.2 a s' hmove)⟩

theorem perform {c : Call} {post : c.Answer → σ → Prop} (hc : m.permits s c)
    (h : ∀ a s', m.moves s c a s' → post a s') : (Program.perform c).Keeps m post s :=
  ⟨hc, h⟩

/-- Calls of one kind, each of which is permitted where `held` holds and leaves it so. -/
theorem of_asks {p : Program α} {calls : Call → Prop} {mid : α → Prop} {post : α → σ → Prop}
    (held : σ → Prop) (hp : p.Asks calls mid) (hs : held s)
    (hcalls : ∀ c s, calls c → held s → m.permits s c ∧ ∀ a s', m.moves s c a s' → held s')
    (h : ∀ v s', mid v → held s' → post v s') : p.Keeps m post s := by
  induction p generalizing s with
  | done value => exact h value s hp hs
  | call c next ih =>
    obtain ⟨hpermits, hmoves⟩ := hcalls c s hp.1 hs
    exact ⟨hpermits, fun a s' hmove => ih a (hp.2 a) (hmoves a s' hmove)⟩

/-- Calls of one kind, each of which is permitted in a state and leaves it as it is. -/
theorem of_still {p : Program α} {calls : Call → Prop} {mid : α → Prop} {post : α → σ → Prop}
    (hp : p.Asks calls mid)
    (hcalls : ∀ c, calls c → m.permits s c ∧ ∀ a s', m.moves s c a s' → s' = s)
    (h : ∀ v, post v s) : p.Keeps m post s := by
  refine of_asks (fun s' => s' = s) hp rfl ?_ ?_
  · rintro c _ hc rfl
    exact hcalls c hc
  · rintro v _ - rfl
    exact h v

end Keeps

/-- However its calls are answered, a program comes to a call as `goal` demands, or it
is done where `post` holds. -/
def Reaches (m : Monitor σ) (goal : Call → Prop) :
    Program α → (α → σ → Prop) → σ → Prop
  | .done value, post, s => post value s
  | .call c next, post, s => goal c ∨ ∀ a s', m.moves s c a s' → Reaches m goal (next a) post s'

namespace Reaches

variable {goal goal' : Call → Prop}

theorem perform {c : Call} {post : c.Answer → σ → Prop} (hc : goal c) :
    (Program.perform c).Reaches m goal post s :=
  Or.inl hc

theorem bind {p : Program α} {f : α → Program β} {post : β → σ → Prop}
    (h : p.Reaches m goal (fun v s' => (f v).Reaches m goal post s') s) :
    (p >>= f).Reaches m goal post s := by
  induction p generalizing s with
  | done value => exact h
  | call c next ih => exact h.imp id fun hnext a s' hmove => ih a (hnext a s' hmove)

theorem of_keeps {p : Program α} {post : α → σ → Prop} (h : p.Keeps m post s) :
    p.Reaches m goal post s := by
  induction p generalizing s with
  | done value => exact h
  | call c next ih => exact Or.inr fun a s' hmove => ih a (h.2 a s' hmove)

theorem mono {p : Program α} {post post' : α → σ → Prop} (h : p.Reaches m goal post s)
    (hgoal : ∀ c, goal c → goal' c) (hpost : ∀ v s', post v s' → post' v s') :
    p.Reaches m goal' post' s := by
  induction p generalizing s with
  | done value => exact hpost value s h
  | call c next ih => exact h.imp (hgoal c) fun hnext a s' hmove => ih a (hnext a s' hmove)

/-- A program that is never done before it comes to such a call. -/
theorem surely {p : Program α} {post : α → σ → Prop}
    (h : p.Reaches m goal (fun _ _ => False) s) (hgoal : ∀ c, goal c → goal' c) :
    p.Reaches m goal' post s :=
  h.mono hgoal fun _ _ => False.elim

end Reaches
end Program
end Lwm2mClient
