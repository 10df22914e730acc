import Lwm2mClient.Proofs.Service.Drift

/-!
What an operation ensures while it is in progress. Its program is followed through every answer
that the surroundings may give and everything that may happen while it waits. One condition has to
hold wherever the operation waits, where it may be abandoned, and another one where it is done.
-/
namespace Lwm2mClient.Service

open Net

/-- Whether a call is one to the surroundings. -/
def isAsked : Call → Bool
  | .objectIds | .readObject _ | .deleteInstance .. | .send .. | .awaitFinish _ => true
  | _ => false

theorem answer?_of_isAsked {c : Call} (hc : isAsked c) (client : Client Task) :
    client.answer? .work c = none := by
  cases c <;> simp_all [isAsked, Client.answer?]

section

variable (hosts : Hosts) (wait : Scene → Prop)

/-- Whatever happens, a program that goes on from a scene waits only where `wait` holds, and it is
done with a value and in a scene as `post` demands. -/
def Ensures {α : Type} : Program α → (α → Scene → Prop) → Scene → Prop
  | .done value, post, s => post value s
  | .call c next, post, s =>
    match s.client.answer? .work c with
    | some reply =>
      Ensures (next reply.answer) post
        ({ s with client := reply.client }.report hosts reply.lines)
    | none =>
      isAsked c ∧ ∀ s', s.Drift s' → wait s' ∧ ∀ a, Ensures (next a) post (s'.hear hosts c a)

end

variable {hosts : Hosts} {wait : Scene → Prop} {α β : Type}

namespace Ensures

theorem bind {p : Program α} {f : α → Program β} {post : β → Scene → Prop} {s : Scene}
    (h : Ensures hosts wait p (fun v s' => Ensures hosts wait (f v) post s') s) :
    Ensures hosts wait (p >>= f) post s := by
  induction p generalizing s with
  | done value => exact h
  | call c next ih =>
    simp only [Program.call_bind, Ensures] at h ⊢
    split at h
    · exact ih _ h
    · exact ⟨h.1, fun s' hs' => ⟨(h.2 s' hs').1, fun a => ih a ((h.2 s' hs').2 a)⟩⟩

/-- A call to the surroundings. -/
theorem perform {c : Call} {post : c.Answer → Scene → Prop} {s : Scene} (hc : isAsked c)
    (h : ∀ s', s.Drift s' → wait s' ∧ ∀ a, post a (s'.hear hosts c a)) :
    Ensures hosts wait (Program.perform c) post s := by
  simp only [Program.perform, Ensures, answer?_of_isAsked hc]
  exact ⟨hc, h⟩

end Ensures

/-! ### Programs as threads follow them -/

theorem proceed_of_reply {holds : Bool} {c : Call} {next : c.Answer → Program α}
    {client : Client Task} {reply : Client.Reply Task c.Answer}
    (h : client.answer? .work c = some reply) :
    proceed holds (.call c next) client =
      { proceed holds (next reply.answer) reply.client with
        lines := reply.lines ++ (proceed holds (next reply.answer) reply.client).lines } := by
  cases c <;> simp_all [proceed, Client.answer?]

theorem proceed_of_isAsked {holds : Bool} {c : Call} {next : c.Answer → Program α}
    {client : Client Task} (hc : isAsked c) :
    proceed holds (.call c next) client = { client, holds, rest := .call c next } := by
  cases c <;> simp_all [isAsked, proceed, Client.answer?]

/-- An operation that ensures something has gone on to a point where it ensures it still. -/
theorem Ensures.proceed {p : Program α} {post : α → Scene → Prop} {s : Scene}
    (h : Ensures hosts wait p post s) :
    (Service.proceed true p s.client).holds = true ∧
      Ensures hosts wait (Service.proceed true p s.client).rest post
        ({ s with client := (Service.proceed true p s.client).client }.report hosts
          (Service.proceed true p s.client).lines) ∧
      ∀ c next, (Service.proceed true p s.client).rest = .call c next → isAsked c := by
  induction p generalizing s with
  | done value => exact ⟨rfl, h, by intro c next hrest; cases hrest⟩
  | call c next ih =>
    simp only [Ensures] at h
    split at h
    · rename_i reply hreply
      rw [proceed_of_reply hreply]
      have hrest := ih _ h
      simpa only [Scene.report, List.foldl_append] using hrest
    · rename_i hnone
      rw [proceed_of_isAsked h.1]
      refine ⟨rfl, ?_, ?_⟩
      · simp only [Scene.report, List.foldl_nil, Ensures, hnone]
        exact h
      · intro c' next' heq
        cases heq
        exact h.1

/-- A program goes on through its first part, and then through its second part if the first is
done. The turn is not given up in the first part. -/
theorem proceed_bind {p : Program α} {client : Client Task} (f : α → Program β)
    (hholds : (Service.proceed true p client).holds = true) :
    Service.proceed true (p >>= f) client =
      match (Service.proceed true p client).rest with
      | .done value =>
        let first := Service.proceed true p client
        let second := Service.proceed true (f value) first.client
        { second with lines := first.lines ++ second.lines }
      | .call c next =>
        { client := (Service.proceed true p client).client
          lines := (Service.proceed true p client).lines
          holds := true
          rest := .call c next >>= f } := by
  induction p generalizing client with
  | done value => rfl
  | call c next ih =>
    by_cases hc : c = .release
    · subst hc
      cases hholds
    · cases hreply : client.answer? .work c with
      | some reply =>
        rw [proceed_of_reply hreply] at hholds
        rw [Program.call_bind, proceed_of_reply hreply, proceed_of_reply hreply,
          ih reply.answer hholds]
        dsimp only
        split <;> simp [List.append_assoc]
      | none =>
        have hself :
            ∀ {γ : Type} (g : c.Answer → Program γ), Service.proceed true (.call c g) client =
            { client, holds := true, rest := .call c g } := by
          intro γ g
          cases c <;> simp_all [proceed, Client.answer?]
        rw [Program.call_bind, hself, hself]
        rfl

end Lwm2mClient.Service
