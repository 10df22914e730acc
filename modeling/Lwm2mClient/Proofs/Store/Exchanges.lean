import Lwm2mClient.Engine.Client

/-!
Programs that a store answers, whatever store it is. Each answer comes from a state of the
store and may change it, so what the store says may differ from one call to the next. Calls
that are not to the store are answered by the client, and a program is served up to the first
call that neither of them answers.
-/
namespace Lwm2mClient

open Net

/-- A store that no access to fails. It has a state of its own, which every call may change. -/
structure ObjectStore (σ : Type) where
  objectIds : σ → List NumericId × σ
  read : NumericId → σ → Option Object × σ
  delete : SocketAddress → NumericId → NumericId → σ → ResponseCode × σ

/-- A call with its answer. -/
structure ObjectStore.Exchange where
  call : Call
  answer : call.Answer

/-- How far a program was served, with what went on between it and the store. -/
structure Served (τ σ α : Type) where
  client : Client τ
  store : σ
  exchanges : List ObjectStore.Exchange
  rest : Program α

variable {τ σ α β : Type}

/-- What was served, with exchanges that went before. -/
def Served.after (exchanges : List ObjectStore.Exchange) (r : Served τ σ α) : Served τ σ α :=
  { r with exchanges := exchanges ++ r.exchanges }

namespace ObjectStore

def answer? (store : ObjectStore σ) : (c : Call) → σ → Option (c.Answer × σ)
  | .objectIds, s => some (store.objectIds s)
  | .readObject object, s => some (store.read object s)
  | .deleteInstance sender object i, s => some (store.delete sender object i s)
  | _, _ => none

variable (store : ObjectStore σ) (wrap : Work → τ)

/-- Serves a program with the answers of a store and of a client. -/
def serve : Program α → Client τ → σ → Served τ σ α
  | .done value, client, s => ⟨client, s, [], .done value⟩
  | .call c next, client, s =>
    match store.answer? c s with
    | some (a, s') => (serve (next a) client s').after [⟨c, a⟩]
    | none =>
      match client.answer? wrap c with
      | some reply => serve (next reply.answer) reply.client s
      | none => ⟨client, s, [], .call c next⟩

/-- Exchanges with a store, from a state on, in which it gives its own answers, and
the state that they leave. -/
inductive Gives : σ → List Exchange → σ → Prop
  | nil {s : σ} : Gives s [] s
  | cons {s s' s'' : σ} {c : Call} {a : c.Answer} {exchanges : List Exchange}
      (h : store.answer? c s = some (a, s')) (hrest : Gives s' exchanges s'') :
      Gives s (⟨c, a⟩ :: exchanges) s''

variable {store wrap} {client client' : Client τ} {s s' : σ}

/-- Whatever is served, the store gives its own answers. -/
theorem gives_serve (wrap : Work → τ) (p : Program α) (client : Client τ) (s : σ) :
    store.Gives s (store.serve wrap p client s).exchanges
      (store.serve wrap p client s).store := by
  induction p generalizing client s with
  | done value => exact .nil
  | call c next ih =>
    rw [serve]
    split
    · rename_i a s' hanswer
      exact .cons hanswer (ih a client s')
    · split
      · rename_i reply _
        exact ih reply.answer reply.client s
      · exact .nil

variable {client'' : Client τ} {s'' : σ} {exchanges later : List Exchange}

/-- A call to the store is answered by it, and what comes of the answer is served from
the state that it leaves. -/
theorem serve_call {c : Call} {a : c.Answer} (h : store.answer? c s = some (a, s'))
    {next : c.Answer → Program α} {rest : Program α}
    (hnext : store.serve wrap (next a) client s' = ⟨client', s'', later, rest⟩) :
    store.serve wrap (.call c next) client s = ⟨client', s'', ⟨c, a⟩ :: later, rest⟩ := by
  rw [serve, h]
  dsimp only
  rw [hnext]
  rfl

/-- After a program that was served to its end, the next one is served. -/
theorem serve_bind {p : Program α} {value : α}
    (h : store.serve wrap p client s = ⟨client', s', exchanges, .done value⟩) {f : α → Program β}
    {rest : Program β}
    (hf : store.serve wrap (f value) client' s' = ⟨client'', s'', later, rest⟩) :
    store.serve wrap (p >>= f) client s = ⟨client'', s'', exchanges ++ later, rest⟩ := by
  induction p generalizing client s exchanges with
  | done v =>
    cases h
    exact hf
  | call c next ih =>
    rw [serve] at h
    rw [Program.call_bind, serve]
    split at h
    · rename_i a s₁ hanswer
      cases hserved : store.serve wrap (next a) client s₁ with
      | mk client₂ s₂ earlier rest =>
        rw [hserved] at h
        cases h
        rw [ih a hserved]
        rfl
    · split at h
      · rename_i reply hreply
        exact ih reply.answer h
      · cases h

end ObjectStore
end Lwm2mClient
