import Lwm2mClient.Proofs.Engine.Management
import Lwm2mClient.Proofs.Service.Executions
import Lwm2mClient.Proofs.Service.Turns

/-!
What an operation undertakes: how far it has changed the registration, what it has sent, and
whether it has touched anything else. Where it is the only thing that happens, what it has not
touched is as it was; and whatever happens aside, nobody else changes the registration or sends
anything while it is in progress.
-/
namespace Lwm2mClient.Service

open Engine Program

/-! ### What was sent, told from events -/

def Event.exchange? (e : Event) : Option Exchange := e.mark?.bind Mark.exchange?

theorem exchanges_cons (e : Event) (events : List Event) :
    exchanges (marksOf (e :: events)) = exchanges (marksOf events) ++ e.exchange?.toList := by
  rw [marksOf_cons, exchanges_append, Event.exchange?]
  cases e.mark? with
  | none => rfl
  | some m => cases h : m.exchange? <;> simp [exchanges, h]

theorem exchanges_of_quiet {events earlier : List Event} (h : ∀ e ∈ events, e.exchange? = none) :
    exchanges (marksOf (events ++ earlier)) = exchanges (marksOf earlier) := by
  induction events with
  | nil => rfl
  | cons e rest ih =>
    rw [List.cons_append, exchanges_cons, h e List.mem_cons_self, Option.toList_none,
      List.append_nil, ih fun e' he' => h e' (List.mem_cons_of_mem e he')]

@[simp] theorem exchange?_reported (line : Log.Line) :
    (Event.reported line).exchange? = none := by
  cases line <;> rfl

@[simp] theorem exchange?_ended (job : Job) (result : Bool) :
    (Event.ended job result).exchange? = none := by
  unfold Event.exchange? Event.mark?
  dsimp only
  split <;> rfl

/-- What happens aside sends nothing. -/
theorem exchange?_of_isAside {e : Event} (h : e.isAside = true) : e.exchange? = none := by
  cases e with
  | began job => rfl
  | reported line => exact exchange?_reported line
  | ended job result => exact exchange?_ended job result
  | returned job result => rfl
  | _ => cases h

/-! ### The monitor -/

structure Undertaking where
  registration : Registration
  /-- What was sent, the earliest first. -/
  sent : List Exchange := []
  /-- Whether nothing but the registration was touched. -/
  modest : Bool := true

def undertaking : Monitor Undertaking where
  permits _ c := c ≠ .acquire ∧ c ≠ .release
  moves x c a x' :=
    match c with
    | .registration => a = x.registration ∧ x' = x
    | .setRegistration r => x' = { x with registration := r }
    | .send _ _ request _ => x' = { x with sent := x.sent ++ [(request, a)] }
    | .openSession _ | .closeSession | .schedule .. | .cancelTask _ | .shutDownTimeline =>
      x' = { x with modest := false }
    | _ => x' = x

section

variable {α : Type} {setup : Setup} {x : Undertaking}

theorem undertakes_reads {p : Program α} {mid : α → Prop} {post : α → Undertaking → Prop}
    (hp : p.Asks Call.isReading mid) (h : ∀ v, post v x) : p.Keeps undertaking post x := by
  refine Keeps.of_still hp (fun c hc => ?_) h
  cases c <;> first | exact absurd hc id | exact ⟨⟨nofun, nofun⟩, fun _ _ hmove => hmove⟩

theorem undertakes_log {line : Log.Line} {post : Unit → Undertaking → Prop} (h : post () x) :
    (log line).Keeps undertaking post x := by
  refine Keeps.perform ⟨nofun, nofun⟩ ?_
  rintro ⟨⟩ x' rfl
  exact h

theorem undertakes_registration {post : Registration → Undertaking → Prop}
    (h : post x.registration x) : registration.Keeps undertaking post x := by
  refine Keeps.perform ⟨nofun, nofun⟩ ?_
  rintro r x' ⟨rfl, rfl⟩
  exact h

theorem undertakes_setRegistration {r : Registration} {post : Unit → Undertaking → Prop}
    (h : post () { x with registration := r }) :
    (Program.perform (.setRegistration r)).Keeps undertaking post x := by
  refine Keeps.perform ⟨nofun, nofun⟩ ?_
  rintro ⟨⟩ x' rfl
  exact h

/-- An event that is expected moves the lifecycle and touches nothing else. -/
theorem undertakes_fire {event : LifecycleEvent} {next : Lifecycle}
    {post : Unit → Undertaking → Prop} (hnext : x.registration.lifecycle.step? event = some next)
    (h : post () { x with registration := { x.registration with lifecycle := next } }) :
    (fire event).Keeps undertaking post x := by
  refine Keeps.bind (undertakes_registration ?_)
  rw [hnext]
  dsimp only
  split
  · exact Keeps.bind (undertakes_log (undertakes_setRegistration h))
  · exact undertakes_setRegistration h

/-- Work on the registration and its renewal sends nothing. -/
theorem undertakes_upkeep {p : Program α} {mid : α → Prop} {post : α → Undertaking → Prop}
    (hp : p.Asks Call.isUpkeep mid) (h : ∀ v x', x'.sent = x.sent → post v x') :
    p.Keeps undertaking post x := by
  refine Keeps.of_asks (fun x' => x'.sent = x.sent) hp rfl
    (fun c x' hc hx' => ?_) fun v x' _ hx' => h v x' hx'
  cases c with
  | log | setRegistration | schedule | cancelTask =>
    refine ⟨⟨nofun, nofun⟩, ?_⟩
    rintro a x'' rfl
    exact hx'
  | registration =>
    refine ⟨⟨nofun, nofun⟩, ?_⟩
    rintro a x'' ⟨-, rfl⟩
    exact hx'
  | _ => exact absurd hc id

theorem undertakes_ask {server : ManagementServer} {request : Request}
    {post : Except Error Response → Undertaking → Prop} (hunsent : ∀ e, post (.error e) x)
    (hanswer : ∀ answer, post (answer.elim (.error .timeout) .ok)
      { x with sent := x.sent ++ [(request, answer)] }) :
    (ask setup server request).Keeps undertaking post x := by
  unfold ask
  split
  · exact hunsent _
  · refine Keeps.bind (undertakes_log (Keeps.bind (Keeps.perform ⟨nofun, nofun⟩ ?_)))
    rintro answer x' rfl
    have h := hanswer answer
    cases answer <;> exact h

end

/-! ### Services -/

/-- Where a state of the monitor tells of an operation that began with a client and a history. If
the operation is alone, what it has not touched is as it was then. -/
def Undertaking.IsSince (alone : Prop) (start : Client Task) (before : List Event)
    (x : Undertaking) (client : Client Task) (history : List Event) : Prop :=
  client.registration = x.registration ∧
    (∃ own, history = own ++ before ∧ exchanges (marksOf own) = x.sent) ∧
    (alone → x.modest = true → client.scheduler = start.scheduler ∧ client.gate = start.gate)

variable {alone : Prop} {start : Client Task} {before : List Event} {x : Undertaking}
  {client : Client Task} {history : List Event}

theorem Undertaking.IsSince.begin (alone : Prop) (client : Client Task) (history : List Event) :
    Undertaking.IsSince alone client history ⟨client.registration, [], true⟩ client history :=
  ⟨rfl, ⟨[], rfl, rfl⟩, fun _ _ => ⟨rfl, rfl⟩⟩

/-- Something is told in which nothing was sent. -/
theorem Undertaking.IsSince.quiet (h : x.IsSince alone start before client history)
    {events : List Event} (hevents : ∀ e ∈ events, e.exchange? = none) :
    x.IsSince alone start before client (events ++ history) := by
  obtain ⟨hregistration, ⟨own, rfl, hsent⟩, halone⟩ := h
  refine ⟨hregistration, ⟨events ++ own, (List.append_assoc ..).symm, ?_⟩, halone⟩
  rw [exchanges_of_quiet hevents, hsent]

theorem exchange?_of_mem_reported {lines : List Log.Line} {e : Event}
    (he : e ∈ lines.reverse.map Event.reported) : e.exchange? = none := by
  obtain ⟨line, -, rfl⟩ := List.mem_map.mp he
  exact exchange?_reported line

theorem undertaking_sees (alone : Prop) (start : Client Task) (before : List Event) :
    Sees undertaking (Undertaking.IsSince alone start before) where
  ofTurn _ _ hc := hc
  reply x client history c reply hx _ hreply := by
    obtain ⟨hregistration, hsent, halone⟩ := hx
    have htold :
        ∀ {x' : Undertaking} {client' : Client Task}, client'.registration = x'.registration →
        x'.sent = x.sent → (alone → x'.modest = true →
          client'.scheduler = start.scheduler ∧ client'.gate = start.gate) →
        x'.IsSince alone start before client' (reply.lines.reverse.map .reported ++ history) := by
      intro x' client' hregistration' hsent' halone'
      have hbefore : x'.IsSince alone start before client' history :=
        ⟨hregistration', hsent' ▸ hsent, halone'⟩
      exact hbefore.quiet fun e he => exchange?_of_mem_reported he
    cases c with
    | registration =>
      cases hreply
      exact ⟨x, ⟨hregistration, rfl⟩, htold hregistration rfl halone⟩
    | log | sessionActive =>
      cases hreply
      exact ⟨x, rfl, htold hregistration rfl halone⟩
    | setRegistration r =>
      cases hreply
      exact ⟨{ x with registration := r }, rfl, htold rfl rfl halone⟩
    | openSession | closeSession | schedule | cancelTask | shutDownTimeline =>
      cases hreply
      exact ⟨{ x with modest := false }, rfl, htold hregistration rfl nofun⟩
    | _ => cases hreply

theorem undertaking_hears {c : Call} {clock : Duration}
    (hx : x.IsSince alone start before client history) (hasked : isAsked c = true)
    (a : c.Answer) :
    ∃ x', undertaking.moves x c a x' ∧
      x'.IsSince alone start before client (.answered c a clock :: history) := by
  obtain ⟨hregistration, ⟨own, rfl, hsent⟩, halone⟩ := hx
  have hheard : ∀ {x' : Undertaking}, x'.registration = x.registration → x'.modest = x.modest →
      x'.sent = x.sent ++ (Event.answered c a clock).exchange?.toList →
      x'.IsSince alone start before client (.answered c a clock :: (own ++ before)) := by
    intro x' hregistration' hmodest hsent'
    refine ⟨hregistration.trans hregistration'.symm, ⟨.answered c a clock :: own, rfl, ?_⟩,
      hmodest ▸ halone⟩
    rw [exchanges_cons, hsent, hsent']
  cases c with
  | send peer secure request timeout =>
    exact ⟨{ x with sent := x.sent ++ [(request, a)] }, rfl, hheard rfl rfl rfl⟩
  | objectIds | readObject | deleteInstance | awaitFinish =>
    exact ⟨x, rfl, hheard rfl rfl (List.append_nil x.sent).symm⟩
  | _ => cases hasked

theorem undertaking_listens (start : Client Task) (before : List Event) :
    Listens undertaking (Undertaking.IsSince False start before) where
  answer _ _ _ _ a _ hx _ hasked := undertaking_hears hx hasked a
  aside x client client' history events c hx _ _ hregistration hquiet := by
    have hsame : x.IsSince False start before client' history :=
      ⟨hregistration.trans hx.1, hx.2.1, nofun⟩
    exact hsame.quiet fun e he => exchange?_of_isAside (hquiet e he)

end Lwm2mClient.Service
