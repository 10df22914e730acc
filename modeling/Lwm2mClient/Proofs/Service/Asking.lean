import Lwm2mClient.Proofs.Engine.Reads
import Lwm2mClient.Proofs.Service.Steps

/-!
The steps of lifecycle work that depend on the surroundings: reading the store, sending a request
and waiting for the end of a session. While such a step waits, anything may happen that does not
take part in the operation, and the store may change from one reading to the next.
-/
namespace Lwm2mClient.Service

open Net Engine

variable {hosts : Hosts} {wait : Scene → Prop} {s : Scene}

/-- A condition that outlasts every wait and every search for the servers, and under
which an operation may wait. -/
structure Steady (wait P : Scene → Prop) : Prop where
  drift : ∀ s s', P s → s.Drift s' → P s'
  search : ∀ s search, P s → P { s with ledger := { s.ledger with search := search } }
  wait : ∀ s, P s → wait s

/-- The id that is held outlasts them too. -/
theorem Steady.holding {P : Scene → Prop} (h : Steady wait P) (id : Option String) :
    Steady wait fun s => P s ∧ s.client.registration.id = id := by
  constructor
  · intro s s' hs hdrift
    refine ⟨h.drift s s' hs.1 hdrift, ?_⟩
    rw [hdrift.registration]
    exact hs.2
  · intro s search hs
    exact ⟨h.search s search hs.1, hs.2⟩
  · intro s hs
    exact h.wait s hs.1

theorem calm_tryOpen (gate : Gate) (peer : ServerInfo) : Calm (gate.tryOpen peer).lines := by
  unfold Gate.tryOpen
  split
  · exact calm_singleton rfl
  · exact calm_singleton rfl
  · exact calm_nil

theorem calm_close (gate : Gate) : Calm gate.close.lines := by
  unfold Gate.close
  split
  · exact calm_nil
  · exact calm_singleton rfl
  · exact calm_nil

theorem isSurprise_of_isFinding {line : Log.Line} (h : line.isFinding = true) :
    isSurprise line = false := by
  cases line <;> first | rfl | cases h

theorem calm_lines (hosts : Hosts) (securities servers : Object) :
    Calm (Extraction.lines hosts securities servers) := by
  intro line hline
  exact isSurprise_of_isFinding (Extraction.isFinding_of_mem_lines hline)

/-- A request was answered. -/
def Scene.judge (s : Scene) (request : Request) (answer : Option Response) : Scene :=
  { s with ledger := s.ledger.judge request answer s.clock }

theorem Scene.judge_none (s : Scene) (request : Request) : s.judge request none = s := by
  cases request <;> rfl

/-- Once the Security object is no more what the store was last asked for, reading another object
is no search for the servers. -/
theorem Search.read_of_left {search : Search} {object : NumericId} {answer : Option Object}
    (hosts : Hosts) (hsecurity : search.security = none) (hobject : object ≠ ObjectId.security) :
    search.read hosts object answer = search := by
  have hleave : search.leave = search := by
    unfold Search.leave
    rw [← hsecurity]
  unfold Search.read
  rw [if_neg hobject, hsecurity, hleave]
  simp only [ite_self]

variable {P : Scene → Prop}

namespace Ensures

theorem logAll {lines : List Log.Line} {post : Unit → Scene → Prop} (hlines : Calm lines)
    (h : post () s) : Ensures hosts wait (Program.logAll lines) post s := by
  induction lines with
  | nil => exact h
  | cons line rest ih =>
    refine bind ?_
    apply log (hlines line List.mem_cons_self)
    exact ih fun x hx => hlines x (List.mem_cons_of_mem line hx)

/-- A call that may fail, or whose answer only the ledger hears of. -/
theorem perform_steady (hP : Steady wait P) (hs : P s) {c : Call} (hc : isAsked c)
    {post : c.Answer → Scene → Prop}
    (h : ∀ a s', P s' → s'.ledger = s.ledger → post a (s'.hear hosts c a)) :
    Ensures hosts wait (Program.perform c) post s := by
  apply perform hc
  intro s' hdrift
  have hs' : P s' := hP.drift s s' hs hdrift
  constructor
  · exact hP.wait s' hs'
  · intro a
    exact h a s' hs' hdrift.ledger

theorem readObject (hP : Steady wait P) (hs : P s) {object : NumericId}
    {post : Option Object → Scene → Prop}
    (h : ∀ a s', P s' → s'.ledger.search = s.ledger.search.read hosts object a → post a s') :
    Ensures hosts wait (Program.perform (.readObject object)) post s := by
  apply perform_steady hP hs rfl
  intro a s' hs' hledger
  apply h a _ (hP.search s' _ hs')
  rw [← hledger]

theorem objectIds (hP : Steady wait P) (hs : P s) {post : List NumericId → Scene → Prop}
    (h : ∀ a s', P s' → s'.ledger.search = s.ledger.search.leave → post a s') :
    Ensures hosts wait (Program.perform .objectIds) post s := by
  apply perform_steady hP hs rfl
  intro a s' hs' hledger
  apply h a _ (hP.search s' _ hs')
  rw [← hledger]

/-! ### Finding the servers -/

/-- The servers that are found are those that the ledger tells of. -/
theorem findServers (hP : Steady wait P) (hs : P s) {post : Option Servers → Scene → Prop}
    (h : ∀ found s', P s' →
      (∀ servers, found = some servers → s'.ledger.search.found = some servers) →
      post found s') : Ensures hosts wait (Lwm2mClient.findServers hosts) post s := by
  refine bind ?_
  apply readObject hP hs
  intro securities? s₁ hs₁ hsearch₁
  cases securities? with
  | none => exact h none s₁ hs₁ (by simp)
  | some securities =>
    have hsecurity : s₁.ledger.search.security = some securities := by
      rw [hsearch₁]
      rfl
    refine bind ?_
    apply readObject hP hs₁
    intro servers? s₂ hs₂ hsearch₂
    cases servers? with
    | none => exact h none s₂ hs₂ (by simp)
    | some servers =>
      refine bind ?_
      apply logAll (calm_lines hosts securities servers)
      apply h _ s₂ hs₂
      intro found hfound
      cases hfound
      rw [hsearch₂]
      unfold Search.read
      rw [hsecurity]
      rfl

theorem requireServers {setup : Setup} (hP : Steady wait P) (hs : P s)
    {post : Except Error Servers → Scene → Prop}
    (h : ∀ r s', P s' → (∀ servers, r = .ok servers → s'.ledger.search.found = some servers) →
      post r s') :
    Ensures setup.hosts wait (Engine.requireServers setup) post s := by
  refine bind ?_
  apply findServers hP hs
  intro found s' hs' hfound
  cases found with
  | none => exact h _ s' hs' (by simp)
  | some servers =>
    apply h _ s' hs'
    intro x hx
    cases hx
    exact hfound servers rfl

theorem requireManagement {setup : Setup} (hP : Steady wait P) (hs : P s)
    {post : Except Error ManagementServer → Scene → Prop}
    (h : ∀ r s', P s' → (∀ server, r = .ok server → s'.ledger.search.management? = some server) →
      post r s') :
    Ensures setup.hosts wait (Engine.requireManagement setup) post s := by
  refine bind ?_
  apply requireServers hP hs
  intro r s' hs' hr
  apply h _ s' hs'
  intro server hserver
  cases r with
  | error e => cases hserver
  | ok servers =>
    have hmanagement : servers.theManagement = .ok server := hserver
    rw [Search.management?, hr servers rfl, Option.bind_some, hmanagement]
    rfl

theorem requireBootstrap {setup : Setup} (hP : Steady wait P) (hs : P s)
    {post : Except Error (ServerInfo × SocketAddress) → Scene → Prop}
    (h : ∀ r s', P s' → post r s') :
    Ensures setup.hosts wait (Engine.requireBootstrap setup) post s := by
  refine bind ?_
  apply requireServers hP hs
  intro r s' hs' _
  cases r with
  | error e => exact h _ s' hs'
  | ok servers =>
    dsimp only
    split
    · exact h _ s' hs'
    · exact h _ s' hs'

theorem knowsManagement {setup : Setup} (hP : Steady wait P) (hs : P s)
    {post : Bool → Scene → Prop} (h : ∀ v s', P s' → post v s') :
    Ensures setup.hosts wait (Engine.knowsManagement setup) post s := by
  refine bind ?_
  apply findServers hP hs
  intro found s' hs' _
  cases found with
  | none => exact h _ s' hs'
  | some servers => exact h _ s' hs'

/-! ### Describing the objects -/

theorem readLinks (hP : Steady wait P) (hs : P s) (hsearch : s.ledger.search.security = none)
    {objects : List NumericId} (hobjects : ObjectId.security ∉ objects)
    {post : List Links.Link → Scene → Prop}
    (h : ∀ links s', P s' → s'.ledger.search = s.ledger.search → post links s') :
    Ensures hosts wait (Lwm2mClient.readLinks objects) post s := by
  induction objects generalizing s post with
  | nil => exact h [] s hs rfl
  | cons object rest ih =>
    have hne : object ≠ ObjectId.security := fun heq => hobjects (heq ▸ List.mem_cons_self)
    have hrest : ObjectId.security ∉ rest :=
      fun hmem => hobjects (List.mem_cons_of_mem object hmem)
    refine bind ?_
    apply readObject hP hs
    intro snapshot s₁ hs₁ hsearch₁
    rw [Search.read_of_left hosts hsearch hne] at hsearch₁
    refine bind ?_
    apply ih hs₁ (hsearch₁ ▸ hsearch) hrest
    intro links s₂ hs₂ hsearch₂
    exact h _ s₂ hs₂ (hsearch₂.trans hsearch₁)

theorem describeObjects (hP : Steady wait P) (hs : P s) {post : String → Scene → Prop}
    (h : ∀ text s', P s' → s'.ledger.search.found = s.ledger.search.found → post text s') :
    Ensures hosts wait Lwm2mClient.describeObjects post s := by
  refine bind ?_
  apply objectIds hP hs
  intro ids s₁ hs₁ hsearch₁
  have hobjects : ObjectId.security ∉ Links.described ids := by simp [Links.described]
  refine bind ?_
  apply readLinks hP hs₁ (by rw [hsearch₁]; rfl) hobjects
  intro links s₂ hs₂ hsearch₂
  apply h _ s₂ hs₂
  rw [hsearch₂, hsearch₁]
  rfl

/-! ### Requests -/

theorem send (hP : Steady wait P) (hs : P s) {peer : SocketAddress} {secure : Bool}
    {request : Request} {timeout : Option Duration} {post : Option Response → Scene → Prop}
    (h : ∀ answer s', P s' → s'.ledger.search = s.ledger.search →
      post answer (s'.judge request answer)) :
    Ensures hosts wait (Program.perform (.send peer secure request timeout)) post s := by
  apply perform_steady hP hs rfl
  intro answer s' hs' hledger
  exact h answer s' hs' (congrArg Ledger.search hledger)

/-- A request to a device management server. Without an answer nothing is known of it. -/
theorem ask {setup : Setup} {server : ManagementServer} {request : Request} (hP : Steady wait P)
    (hs : P s) {post : Except Error Response → Scene → Prop}
    (herror : ∀ e s', P s' → post (.error e) s')
    (hok : ∀ response s', P s' → s'.ledger.search = s.ledger.search →
      post (.ok response) (s'.judge request (some response))) :
    Ensures hosts wait (Engine.ask setup server request) post s := by
  unfold Engine.ask
  split
  · exact herror _ s hs
  · refine bind ?_
    apply log rfl
    refine bind ?_
    apply send hP hs
    intro answer s' hs' hsearch
    cases answer with
    | none => exact herror _ _ (by rwa [Scene.judge_none])
    | some response => exact hok response s' hs' hsearch

theorem awaitBootstrap {setup : Setup} {answer : Option Response} (hP : Steady wait P) (hs : P s)
    {post : Bool → Scene → Prop} (h : ∀ v s', P s' → post v s') :
    Ensures hosts wait (Engine.awaitBootstrap setup answer) post s := by
  unfold Engine.awaitBootstrap
  split
  · refine bind ?_
    apply log rfl
    exact h _ s hs
  · split
    · refine bind ?_
      apply log rfl
      refine bind ?_
      apply perform_steady hP hs rfl
      intro finished s' hs' _
      cases finished with
      | false =>
        refine bind ?_
        apply log rfl
        exact h _ s' hs'
      | true => exact h _ s' hs'
    · refine bind ?_
      apply log rfl
      exact h _ s hs

/-! ### The gate of sessions -/

theorem gate (hP : Steady wait P) (hs : P s) (g : Gate) :
    P { s with client := { s.client with gate := g } } :=
  hP.drift s _ hs (Scene.Drift.of_gate s g)

theorem openSession (hP : Steady wait P) (hs : P s) {peer : ServerInfo}
    {post : Bool → Scene → Prop} (h : ∀ v s', P s' → post v s') :
    Ensures hosts wait (Program.perform (.openSession peer)) post s := by
  change post _ (Scene.report hosts _ _)
  rw [report_of_calm (calm_tryOpen s.client.gate peer)]
  exact h _ _ (gate hP hs _)

theorem closeSession (hP : Steady wait P) (hs : P s) {post : Unit → Scene → Prop}
    (h : ∀ s', P s' → post () s') :
    Ensures hosts wait (Program.perform .closeSession) post s := by
  change post _ (Scene.report hosts _ _)
  rw [report_of_calm (calm_close s.client.gate)]
  exact h _ (gate hP hs _)

end Ensures
end Lwm2mClient.Service
