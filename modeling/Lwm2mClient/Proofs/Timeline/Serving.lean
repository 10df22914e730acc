import Lwm2mClient.Timeline.Worker
import Lwm2mClient.Proofs.Durations
import Lwm2mClient.Proofs.Timeline.Numbering

/-!
The moves of a worker. It starts a task that is due, skips one that is due and was cancelled or,
where the next of the tasks that it has received is due later, receives a command. The tasks
received wait in the order of their due times, so nothing that it has received is due where it
receives a command. Every move lowers what is left to be done, so a worker whose clock does not
move is blocked in the end, or has stopped.
-/
namespace Lwm2mClient

open Timeline (Entry enqueue mem_enqueue)

namespace Timeline

variable {τ : Type} {e x : Entry τ} {q : List (Entry τ)} {p : Entry τ → Bool}

/-- Whether each entry is due no later than those behind it. -/
def InDueOrder (q : List (Entry τ)) : Prop := q.Pairwise fun a b => a.due ≤ b.due

theorem inDueOrder_enqueue (h : InDueOrder q) : InDueOrder (enqueue e q) := by
  induction q with
  | nil => exact List.pairwise_singleton _ _
  | cons x xs ih =>
    obtain ⟨hx, hxs⟩ := List.pairwise_cons.mp h
    simp only [enqueue]
    split
    · rename_i hlt
      refine List.pairwise_cons.mpr ⟨fun y hy => ?_, h⟩
      rcases List.mem_cons.mp hy with rfl | hy
      · exact Nat.le_of_lt hlt
      · exact Duration.le_trans (Nat.le_of_lt hlt) (hx y hy)
    · rename_i hlt
      refine List.pairwise_cons.mpr ⟨fun y hy => ?_, ih hxs⟩
      rcases mem_enqueue.mp hy with rfl | hy
      · exact Duration.not_lt.mp hlt
      · exact hx y hy

end Timeline

namespace Worker

variable {τ : Type} {w w' : Worker τ} {due? : Option (Entry τ)}

/-- Whether none of the tasks received is due, as far as the next one tells. -/
def IsIdle (w : Worker τ) : Prop := ∀ e ∈ w.queue.head?, w.now < e.due

/-- What a move can lead to, and when. -/
inductive Goes (w : Worker τ) : Option (Entry τ) → Worker τ → Prop where
  | starts (e : Entry τ) (rest : List (Entry τ)) (hqueue : w.queue = e :: rest)
      (hdue : e.due ≤ w.now) (hkept : e.number ∉ w.cancelled) :
    Goes w (some e) { w with queue := rest }
  | skips (e : Entry τ) (rest : List (Entry τ)) (hqueue : w.queue = e :: rest)
      (hdue : e.due ≤ w.now) (hcancelled : e.number ∈ w.cancelled) :
    Goes w none { w with queue := rest }
  | receives (e : Entry τ) (rest : List (Command τ)) (hidle : w.IsIdle)
      (hcommands : w.commands = .schedule e :: rest) :
    Goes w none { w with commands := rest, queue := enqueue e w.queue }
  | stops (rest : List (Command τ)) (hidle : w.IsIdle) (hcommands : w.commands = .stop :: rest) :
    Goes w none { w with commands := rest, queue := [], stopped := true }

/-- What the next command leads to. -/
def receive? (w : Worker τ) : Option (Option (Entry τ) × Worker τ) :=
  match w.commands with
  | .schedule e :: rest => some (none, { w with commands := rest, queue := enqueue e w.queue })
  | .stop :: rest => some (none, { w with commands := rest, queue := [], stopped := true })
  | [] => none

theorem goes_of_receive? (hidle : w.IsIdle)
    (h : w.receive? = some (due?, w')) : w.Goes due? w' := by
  unfold receive? at h
  split at h
  · cases h
    exact .receives _ _ hidle ‹_›
  · cases h
    exact .stops _ hidle ‹_›
  · cases h

theorem commands_of_receive? (h : w.receive? = none) : w.commands = [] := by
  unfold receive? at h
  split at h
  · cases h
  · cases h
  · assumption

theorem isIdle_or_due (w : Worker τ) :
    w.IsIdle ∨ ∃ e rest, w.queue = e :: rest ∧ e.due ≤ w.now := by
  cases hqueue : w.queue with
  | nil =>
    refine Or.inl fun e he => ?_
    rw [hqueue] at he
    cases he
  | cons first rest =>
    by_cases hdue : first.due ≤ w.now
    · exact Or.inr ⟨first, rest, rfl, hdue⟩
    · refine Or.inl fun e he => ?_
      rw [hqueue] at he
      cases he
      exact Nat.lt_of_not_le hdue

theorem move?_of_isIdle (hserving : w.stopped = false)
    (hidle : w.IsIdle) : w.move? = w.receive? := by
  unfold move?
  rw [if_neg (Bool.eq_false_iff.mp hserving)]
  dsimp only
  split
  · rename_i e rest hqueue
    have hlater : ¬ e.due ≤ w.now := Nat.not_le_of_lt (hidle e (hqueue ▸ rfl))
    rw [if_neg hlater]
    rfl
  · rfl

theorem move?_of_due {e : Entry τ} {rest : List (Entry τ)} (hserving : w.stopped = false)
    (hqueue : w.queue = e :: rest) (hdue : e.due ≤ w.now) :
    w.move? =
      some (if e.number ∈ w.cancelled then none else some e, { w with queue := rest }) := by
  unfold move?
  rw [if_neg (Bool.eq_false_iff.mp hserving)]
  simp only [hqueue]
  rw [if_pos hdue]

theorem goes_of_move? (h : w.move? = some (due?, w')) : w.stopped = false ∧ w.Goes due? w' := by
  have hserving : w.stopped = false := by
    refine Bool.eq_false_iff.mpr fun hstopped => ?_
    rw [move?, if_pos hstopped] at h
    cases h
  refine ⟨hserving, ?_⟩
  rcases w.isIdle_or_due with hidle | ⟨e, rest, hqueue, hdue⟩
  · exact goes_of_receive? hidle (move?_of_isIdle hserving hidle ▸ h)
  · rw [move?_of_due hserving hqueue hdue] at h
    split at h
    · cases h
      exact .skips e rest hqueue hdue ‹_›
    · cases h
      exact .starts e rest hqueue hdue ‹_›

/-- A worker that has not stopped is blocked only where nothing is due and nothing more was sent
to it. -/
theorem isIdle_of_blocked (hserving : w.stopped = false) (h : w.move? = none) :
    w.IsIdle ∧ w.commands = [] := by
  rcases w.isIdle_or_due with hidle | ⟨e, rest, hqueue, hdue⟩
  · exact ⟨hidle, commands_of_receive? (move?_of_isIdle hserving hidle ▸ h)⟩
  · rw [move?_of_due hserving hqueue hdue] at h
    cases h

/-- A move changes neither the clock nor what was cancelled, nor whether the worker takes more. -/
theorem Goes.steady (h : w.Goes due? w') :
    w'.now = w.now ∧ w'.cancelled = w.cancelled ∧ w'.closed = w.closed := by
  cases h <;> exact ⟨rfl, rfl, rfl⟩

theorem Goes.due_le {e : Entry τ} (h : w.Goes (some e) w') : e.due ≤ w.now := by
  cases h with
  | starts e rest hqueue hdue hkept => exact hdue

/-! ### The order of what was received -/

theorem Goes.inDueOrder (h : Timeline.InDueOrder w.queue) (hgoes : w.Goes due? w') :
    Timeline.InDueOrder w'.queue := by
  cases hgoes with
  | starts e rest hqueue hdue hkept => exact (List.pairwise_cons.mp (hqueue ▸ h)).2
  | skips e rest hqueue hdue hcancelled => exact (List.pairwise_cons.mp (hqueue ▸ h)).2
  | receives e rest hidle hcommands => exact Timeline.inDueOrder_enqueue h
  | stops rest hidle hcommands => exact List.Pairwise.nil

/-- Where the next of the tasks received is due later, so are all of them. -/
theorem IsIdle.later (h : w.IsIdle) (horder : Timeline.InDueOrder w.queue) :
    ∀ e ∈ w.queue, w.now < e.due := by
  intro e he
  cases hqueue : w.queue with
  | nil =>
    rw [hqueue] at he
    cases he
  | cons first rest =>
    have hfirst : w.now < first.due := h first (hqueue ▸ rfl)
    rw [hqueue] at he horder
    rcases List.mem_cons.mp he with rfl | hrest
    · exact hfirst
    · exact Nat.lt_of_lt_of_le hfirst ((List.pairwise_cons.mp horder).1 e hrest)

/-! ### What is left to be done -/

/-- How many moves a worker makes at most while its clock stands still: it receives a task, and
starts it. -/
def load (w : Worker τ) : Nat := 2 * w.commands.length + w.queue.length

theorem Goes.load_lt (h : w.Goes due? w') : w'.load < w.load := by
  cases h with
  | starts e rest hqueue hdue hkept => simp [load, hqueue]
  | skips e rest hqueue hdue hcancelled => simp [load, hqueue]
  | receives e rest hidle hcommands =>
    have hlength := (Timeline.enqueue_perm e w.queue).length_eq
    simp only [load, hlength, hcommands, List.length_cons]
    omega
  | stops rest hidle hcommands =>
    simp only [load, hcommands, List.length_cons, List.length_nil]
    omega

end Worker
end Lwm2mClient
