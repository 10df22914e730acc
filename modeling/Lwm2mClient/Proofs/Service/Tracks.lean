import Lwm2mClient.Proofs.Engine.Reads
import Lwm2mClient.Proofs.Engine.Upkeep
import Lwm2mClient.Proofs.Service.Live

/-!
The track of an operation: its client, the tasks in hand of those who wait, and the marks
that it has left in the history since it had its turn. A program is followed along its
track through every answer that the surroundings may give, with everything that may happen
to the renewals while it waits.
-/
namespace Lwm2mClient.Service

open Net Engine

/-- What an operation leaves in the history that tells how it goes. -/
inductive Mark where
  | sent (request : Request) (answer : Option Response)
  | registrationFailed
  /-- There was no registration to update. -/
  | updateSkipped
  /-- The Update request could not be sent. -/
  | updateFailed
  /-- No session was opened to send a Bootstrap request in. -/
  | bootstrapUnsent
  | bootstrapFailed
  | stopped
  deriving DecidableEq

/-- The mark that a line leaves. -/
def lineMark? : Log.Line → Option Mark
  | .registrationFailed _ => some .registrationFailed
  | .updateSkipped => some .updateSkipped
  | .updateFailed _ => some .updateFailed
  | .cannotBootstrap _ | .bootstrapInProgress => some .bootstrapUnsent
  | .bootstrapTimedOut | .bootstrapUnfinished _ | .bootstrapRefused _ => some .bootstrapFailed
  | _ => none

/-- The mark that an event leaves. -/
def Event.mark? : Event → Option Mark
  | .reported line => lineMark? line
  | .answered (.send _ _ request _) answer _ => some (.sent request answer)
  | .ended job _ => if job.isStop then some .stopped else none
  | _ => none

structure Track where
  client : Client Task
  hand : List (Timeline.Entry Task)
  /-- The marks of the operation, the earliest first. -/
  marks : List Mark := []

namespace Track

def mark (t : Track) (mark : Mark) : Track := { t with marks := t.marks ++ [mark] }

def note (t : Track) (e : Event) : Track := { t with marks := t.marks ++ e.mark?.toList }

def report (t : Track) (lines : List Log.Line) : Track :=
  { t with marks := t.marks ++ lines.filterMap lineMark? }

def hear (t : Track) (c : Call) (answer : c.Answer) : Track :=
  t.note (.answered c answer t.client.scheduler.clock)

/-- The generation of the registration. -/
abbrev generation (t : Track) : Nat := t.client.registration.generation

/-- What an operation sees that is told nothing of the history. -/
def scene (t : Track) : Scene := ⟨t.client, t.hand, {}⟩

/-- The registration and its renewal are as they were, wherever the lifecycle stands; of the
renewals that wait, some may have been taken out or dropped. -/
structure Retains (t t' : Track) : Prop where
  id : t'.client.registration.id = t.client.registration.id
  renewal : t'.client.registration.renewal = t.client.registration.renewal
  generation : t'.generation = t.generation
  ages : Ages t.client.scheduler t'.client.scheduler t.hand t'.hand

/-- What may happen to a track while its operation waits, or moves the lifecycle alone. -/
structure Drift (t t' : Track) : Prop extends Retains t t' where
  marks : t'.marks = t.marks

variable {t t' t'' : Track}

theorem Retains.refl (t : Track) : t.Retains t := ⟨rfl, rfl, rfl, Ages.refl _ _⟩

theorem Retains.trans (h : t.Retains t') (h' : t'.Retains t'') : t.Retains t'' where
  id := h'.id.trans h.id
  renewal := h'.renewal.trans h.renewal
  generation := h'.generation.trans h.generation
  ages := h.ages.trans h'.ages

theorem Drift.refl (t : Track) : t.Drift t := ⟨Retains.refl t, rfl⟩

theorem Drift.trans (h : t.Drift t') (h' : t'.Drift t'') : t.Drift t'' :=
  ⟨h.toRetains.trans h'.toRetains, h'.marks.trans h.marks⟩

theorem Drift.of_gate (t : Track) (gate : Gate) :
    t.Drift { t with client := { t.client with gate := gate } } :=
  { Drift.refl t with }

/-- A track has gone on, and some marks were left. -/
structure Leaves (t : Track) (marks : List Mark) (t' : Track) : Prop where
  marks : t'.marks = t.marks ++ marks
  generation : t.generation ≤ t'.generation

theorem Drift.leaves (h : t.Drift t') : t.Leaves [] t' where
  marks := by rw [h.marks, List.append_nil]
  generation := Nat.le_of_eq h.generation.symm

theorem Leaves.trans {marks marks' : List Mark} (h : t.Leaves marks t')
    (h' : t'.Leaves marks' t'') : t.Leaves (marks ++ marks') t'' where
  marks := by rw [h'.marks, h.marks, List.append_assoc]
  generation := Nat.le_trans h.generation h'.generation

theorem Leaves.drift {marks : List Mark} (h : t.Leaves marks t') (h' : t'.Drift t'') :
    t.Leaves marks t'' where
  marks := h'.marks.trans h.marks
  generation := Nat.le_trans h.generation h'.leaves.generation

theorem Leaves.mark {marks : List Mark} (h : t.Leaves marks t') (m : Mark) :
    t.Leaves (marks ++ [m]) (t'.mark m) where
  marks := by rw [Track.mark, h.marks, List.append_assoc]
  generation := h.generation

theorem report_unmarked {lines : List Log.Line} (h : ∀ line ∈ lines, lineMark? line = none) :
    t.report lines = t := by
  have hnone : lines.filterMap lineMark? = [] := List.filterMap_eq_nil_iff.mpr h
  rw [report, hnone, List.append_nil]

theorem report_nil (t : Track) : t.report [] = t := report_unmarked (by simp)

theorem report_line (t : Track) (line : Log.Line) :
    t.report [line] = t.note (.reported line) := by
  unfold report note Event.mark?
  cases hmark : lineMark? line <;> simp [hmark]

theorem note_unmarked {e : Event} (h : e.mark? = none) : t.note e = t := by
  rw [note, h]
  simp

theorem note_marked {e : Event} {m : Mark} (h : e.mark? = some m) : t.note e = t.mark m := by
  rw [note, h]
  rfl

end Track

/-! ### Following a program -/

section

variable (wait : Call → Track → Prop)

/-- Whatever happens, a program that goes on along a track waits only for calls and where `wait`
holds, and it is done with a value and on a track as `post` demands. -/
def Tracks {α : Type} : Program α → (α → Track → Prop) → Track → Prop
  | .done value, post, t => post value t
  | .call c next, post, t =>
    match t.client.answer? .work c with
    | some reply =>
      Tracks (next reply.answer) post ({ t with client := reply.client }.report reply.lines)
    | none =>
      isAsked c ∧ ∀ t', t.Drift t' → wait c t' ∧ ∀ a, Tracks (next a) post (t'.hear c a)

end

variable {wait : Call → Track → Prop} {α β : Type} {t t' : Track}

namespace Tracks

theorem bind {p : Program α} {f : α → Program β} {post : β → Track → Prop}
    (h : Tracks wait p (fun v t' => Tracks wait (f v) post t') t) :
    Tracks wait (p >>= f) post t := by
  induction p generalizing t with
  | done value => exact h
  | call c next ih =>
    simp only [Program.call_bind, Tracks] at h ⊢
    split at h
    · exact ih _ h
    · exact ⟨h.1, fun t' ht' => ⟨(h.2 t' ht').1, fun a => ih a ((h.2 t' ht').2 a)⟩⟩

/-- A call to the surroundings. -/
theorem perform {c : Call} {post : c.Answer → Track → Prop} (hc : isAsked c)
    (h : ∀ t', t.Drift t' → wait c t' ∧ ∀ a, post a (t'.hear c a)) :
    Tracks wait (Program.perform c) post t := by
  simp only [Program.perform, Tracks, answer?_of_isAsked hc]
  exact ⟨hc, h⟩

theorem drift {c : Call} {next : c.Answer → Program α} {post : α → Track → Prop} (hc : isAsked c)
    (h : Tracks wait (.call c next) post t) (hdrift : t.Drift t') :
    Tracks wait (.call c next) post t' := by
  simp only [Tracks, answer?_of_isAsked hc] at h ⊢
  refine ⟨hc, ?_⟩
  intro t'' hdrift'
  exact h.2 t'' (hdrift.trans hdrift')

/-- A program has gone on to a point from where its track leads on as demanded. -/
theorem proceed {p : Program α} {post : α → Track → Prop} (h : Tracks wait p post t) :
    (Service.proceed true p t.client).holds = true ∧
      Tracks wait (Service.proceed true p t.client).rest post
        ({ t with client := (Service.proceed true p t.client).client }.report
          (Service.proceed true p t.client).lines) ∧
      ∀ c next, (Service.proceed true p t.client).rest = .call c next → isAsked c := by
  induction p generalizing t with
  | done value =>
    refine ⟨rfl, ?_, ?_⟩
    · exact (Track.report_nil t).symm ▸ h
    · intro c next hrest
      cases hrest
  | call c next ih =>
    simp only [Tracks] at h
    split at h
    · rename_i reply hreply
      rw [proceed_of_reply hreply]
      have hrest := ih _ h
      simpa only [Track.report, List.filterMap_append, List.append_assoc] using hrest
    · rename_i hnone
      rw [proceed_of_isAsked h.1]
      refine ⟨rfl, ?_, ?_⟩
      · rw [Track.report_unmarked (by simp)]
        simp only [Tracks, hnone]
        exact h
      · intro c' next' heq
        cases heq
        exact h.1

/-! ### Parts of programs -/

theorem log {line : Log.Line} {post : Unit → Track → Prop}
    (h : post () (t.note (.reported line))) : Tracks wait (Program.log line) post t := by
  change post () (t.report [line])
  rwa [Track.report_line]

/-- A line without a mark leaves no track. -/
theorem log_unmarked {line : Log.Line} {post : Unit → Track → Prop}
    (hline : lineMark? line = none) (h : post () t) : Tracks wait (Program.log line) post t := by
  apply log
  rwa [Track.note_unmarked (e := .reported line) hline]

theorem registration {post : Registration → Track → Prop} (h : post t.client.registration t) :
    Tracks wait Engine.registration post t := by
  change post _ (t.report [])
  rwa [Track.report_unmarked (by simp)]

end Tracks

/-- The calls that leave the registration alone and no mark. -/
def isIdle : Call → Prop
  | .objectIds | .readObject _ | .awaitFinish _ | .sessionActive | .openSession _ | .closeSession
  | .registration => True
  | .log line => lineMark? line = none
  | _ => False

theorem lineMark?_of_isFinding {line : Log.Line} (h : line.isFinding = true) :
    lineMark? line = none := by
  cases line <;> first | rfl | cases h

theorem lineMark?_of_isUpkeep {line : Log.Line} (h : line.isUpkeep = true) :
    lineMark? line = none := by
  cases line <;> first | rfl | cases h

theorem isIdle_of_isReading {c : Call} (h : c.isReading) : isIdle c := by
  cases c with
  | log line => exact lineMark?_of_isFinding h
  | _ => simp_all [Call.isReading, isIdle]

theorem isAsked_of_isIdle {c : Call} (hc : isIdle c) {client : Client Task}
    (h : client.answer? .work c = none) : isAsked c = true := by
  cases c <;> first | rfl | exact absurd hc id | cases h

theorem mark?_of_isIdle {c : Call} (hc : isIdle c) (a : c.Answer) (now : Duration) :
    (Event.answered c a now).mark? = none := by
  cases c <;> first | rfl | exact absurd hc id

theorem lineMark?_tryOpen {gate : Gate} {peer : ServerInfo} {line : Log.Line}
    (h : line ∈ (gate.tryOpen peer).lines) : lineMark? line = none := by
  unfold Gate.tryOpen at h
  split at h <;> simp_all [lineMark?]

theorem lineMark?_close {gate : Gate} {line : Log.Line} (h : line ∈ gate.close.lines) :
    lineMark? line = none := by
  unfold Gate.close at h
  split at h <;> simp_all [lineMark?]

theorem drift_of_isIdle {c : Call} (hc : isIdle c) {reply : Client.Reply Task c.Answer}
    (hreply : t.client.answer? .work c = some reply) :
    t.Drift ({ t with client := reply.client }.report reply.lines) := by
  cases c with
  | log line =>
    cases hreply
    have hsame : t.report [line] = t := Track.report_unmarked fun x hx => by
      rw [List.mem_singleton.mp hx]
      exact hc
    exact hsame.symm ▸ Track.Drift.refl t
  | openSession peer =>
    cases hreply
    rw [Track.report_unmarked fun _ => lineMark?_tryOpen]
    exact Track.Drift.of_gate t _
  | closeSession =>
    cases hreply
    rw [Track.report_unmarked fun _ => lineMark?_close]
    exact Track.Drift.of_gate t _
  | registration =>
    cases hreply
    exact (Track.report_nil t).symm ▸ Track.Drift.refl t
  | sessionActive =>
    cases hreply
    exact (Track.report_nil t).symm ▸ Track.Drift.refl t
  | _ => simp_all [isIdle, Client.answer?]

namespace Tracks

/-- What leaves the registration alone and no mark lets the track drift. -/
theorem idle {p : Program α} {mid : α → Prop} {post : α → Track → Prop} (hp : p.Asks isIdle mid)
    (hwait : ∀ c t', isIdle c → t.Drift t' → wait c t')
    (h : ∀ v t', mid v → t.Drift t' → post v t') : Tracks wait p post t := by
  induction p generalizing t with
  | done value => exact h value t hp (Track.Drift.refl t)
  | call c next ih =>
    have hnext : ∀ a t', t.Drift t' → Tracks wait (next a) post t' := by
      intro a t' hdrift
      refine ih a (hp.2 a) ?_ ?_
      · intro c' t'' hc' hdrift'
        exact hwait c' t'' hc' (hdrift.trans hdrift')
      · intro v t'' hv hdrift'
        exact h v t'' hv (hdrift.trans hdrift')
    cases hreply : t.client.answer? .work c with
    | some reply =>
      simp only [Tracks, hreply]
      exact hnext _ _ (drift_of_isIdle hp.1 hreply)
    | none =>
      simp only [Tracks, hreply]
      refine ⟨isAsked_of_isIdle hp.1 hreply, ?_⟩
      intro t' hdrift
      refine ⟨hwait c t' hp.1 hdrift, ?_⟩
      intro a
      rw [Track.hear, Track.note_unmarked (mark?_of_isIdle hp.1 a _)]
      exact hnext a t' hdrift

/-- What reads the store lets the track drift. -/
theorem reads {p : Program α} {mid : α → Prop} {post : α → Track → Prop}
    (hp : p.Asks Call.isReading mid) (hwait : ∀ c t', isIdle c → t.Drift t' → wait c t')
    (h : ∀ v t', mid v → t.Drift t' → post v t') : Tracks wait p post t :=
  idle (hp.mono (fun _ => isIdle_of_isReading) fun _ hv => hv) hwait h

/-- What concerns the registration and its renewal alone leaves no mark. -/
theorem upkeep {hosts : Hosts} {p : Program α} {mid : α → Scene → Prop} {post : α → Track → Prop}
    {s : Scene} (hp : Ensures hosts (fun _ => False) p mid s)
    (hcalls : p.Asks Call.isUpkeep fun _ => True) (hclient : t.client = s.client)
    (h : ∀ v s', mid v s' → post v { t with client := s'.client }) : Tracks wait p post t := by
  induction p generalizing s t with
  | done value =>
    have hpost := h value s hp
    rwa [← hclient] at hpost
  | call c next ih =>
    simp only [Ensures, ← hclient] at hp
    cases hreply : t.client.answer? .work c with
    | none =>
      rw [hreply] at hp
      exact absurd (hp.2 s (Scene.Drift.refl s)).1 id
    | some reply =>
      rw [hreply] at hp
      have hlines : ∀ line ∈ reply.lines, lineMark? line = none := by
        have hcall := hcalls.1
        cases c with
        | log line =>
          cases hreply
          intro x hx
          rw [List.mem_singleton.mp hx]
          exact lineMark?_of_isUpkeep hcall
        | _ => first | exact absurd hcall id | (cases hreply; simp)
      simp only [Tracks, hreply]
      rw [Track.report_unmarked hlines]
      exact ih reply.answer hp (hcalls.2 _) rfl h

theorem openSession {peer : ServerInfo} {post : Bool → Track → Prop}
    (h : ∀ opened t', t.Drift t' → post opened t') :
    Tracks wait (Program.perform (.openSession peer)) post t := by
  change post _ (Track.report _ _)
  rw [Track.report_unmarked fun _ => lineMark?_tryOpen]
  exact h _ _ (Track.Drift.of_gate t _)

theorem closeSession {post : Unit → Track → Prop} (h : ∀ t', t.Drift t' → post () t') :
    Tracks wait (Program.perform .closeSession) post t := by
  change post _ (Track.report _ _)
  rw [Track.report_unmarked fun _ => lineMark?_close]
  exact h _ (Track.Drift.of_gate t _)

/-- A request to a server that has an address. Without one the error is local. -/
theorem ask {setup : Setup} {server : ManagementServer} {request : Request}
    {post : Except Error Response → Track → Prop}
    (hwait : ∀ peer secure timeout t', t.Drift t' → wait (.send peer secure request timeout) t')
    (hlocal : ∀ e, e.isLocal = true → post (.error e) t)
    (htimeout : ∀ t', t.Drift t' → post (.error .timeout) (t'.mark (.sent request none)))
    (hanswer : ∀ response t', t.Drift t' →
      post (.ok response) (t'.mark (.sent request (some response)))) :
    Tracks wait (Engine.ask setup server request) post t := by
  unfold Engine.ask
  split
  · rename_i e he
    exact hlocal e (requireAddress_failsLocally server.info e he)
  · refine bind ?_
    apply log_unmarked rfl
    refine bind ?_
    apply perform rfl
    intro t' hdrift
    refine ⟨hwait _ _ _ t' hdrift, ?_⟩
    intro answer
    rw [Track.hear, Track.note_marked rfl]
    cases answer with
    | none => exact htimeout t' hdrift
    | some response => exact hanswer response t' hdrift

end Tracks
end Lwm2mClient.Service
