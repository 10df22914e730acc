import Lwm2mClient.Proofs.Engine.Sendings
import Lwm2mClient.Proofs.Sessions.Purges

/-!
What an engine does when it starts. In a world where nothing is shown and nothing disturbs the
store, each part of the work can be followed exactly: what it reads is what the store holds, it
changes nothing but the registration, and it pauses at the first request, or ends without one.
-/
namespace Lwm2mClient.Scenario

open Net Program Engine

variable {α : Type} {w : World} {e : Nat} {s : EngineState} {r : Registration}

/-! ### Reading -/

/-- Nothing is modified in an array where the entry is as it should be. -/
theorem modify_eq_self {xs : Array α} {i : Nat} {f : α → α} (h : ∀ x, xs[i]? = some x → f x = x) :
    xs.modify i f = xs := by
  apply Array.ext_getElem?
  intro j
  rw [Array.getElem?_modify]
  split
  · rename_i hij
    subst hij
    cases hx : xs[i]? with
    | none => rfl
    | some x => exact congrArg some (h x hx)
  · rfl

theorem World.withClient_client (w : World) (engine : Option Nat) :
    w.withClient engine (w.client engine) = w := by
  cases engine with
  | none => rfl
  | some e =>
    have hengines :
        (w.engines.modify e fun s =>
          { s with registration := (w.client (some e)).registration }) =
        w.engines := by
      refine modify_eq_self fun s hs => ?_
      have hregistration : (w.client (some e)).registration = s.registration := by
        simp only [client, Option.bind_some, engine?, hs, Option.map_some, Option.getD_some]
      rw [hregistration]
    simp only [World.withClient, hengines]
    rfl

section

variable {engine : Option Nat} (hquiet : w.level = none)

include hquiet

theorem follow_line (line : Log.Line) (f : Unit → Program α) :
    follow engine (log line >>= f) w = follow engine (f ()) w := by
  have hsame : (w.withClient engine (w.client engine)).report [line] = w := by
    rw [World.withClient_client, World.report_of_quiet hquiet]
  have hanswer : w.answer? engine (.log line) =
      some ((w.withClient engine (w.client engine)).report [line], .ok ()) := rfl
  rw [hsame] at hanswer
  exact follow_of_ok (f := f) hanswer nofun nofun

theorem follow_lines (lines : List Log.Line) (f : Unit → Program α) :
    follow engine (logAll lines >>= f) w = follow engine (f ()) w := by
  induction lines with
  | nil => rfl
  | cons line rest ih => exact (follow_line hquiet line _).trans ih

variable (hplain : w.disturbance = {})

include hplain

theorem follow_readObject (object : NumericId) (f : Option Object → Program α) :
    follow engine (perform (.readObject object) >>= f) w =
      follow engine (f (w.store.read object)) w :=
  follow_of_ok (c := .readObject object) (f := f)
    (congrArg some (World.readObject_of_plain hplain hquiet object)) nofun nofun

theorem follow_findServers (hosts : Hosts) (f : Option Servers → Program α) :
    follow engine (findServers hosts >>= f) w = follow engine (f (w.view.servers? hosts)) w := by
  rw [findServers, bind_assoc, follow_readObject hquiet hplain,
    World.servers?_of_plain hplain hosts]
  cases w.store.read ObjectId.security with
  | none => rfl
  | some securities =>
    dsimp only
    rw [bind_assoc, follow_readObject hquiet hplain]
    cases w.store.read ObjectId.server with
    | none => rfl
    | some servers =>
      dsimp only
      rw [bind_assoc, follow_lines hquiet]
      rfl

theorem follow_readLinks (objects : List NumericId) (f : List Links.Link → Program α) :
    follow engine (readLinks objects >>= f) w = follow engine (f (w.view.linksOf objects)) w := by
  induction objects generalizing f with
  | nil => rfl
  | cons object rest ih =>
    rw [readLinks, bind_assoc, follow_readObject hquiet hplain, bind_assoc, ih]
    simp only [View.linksOf, List.flatMap_cons, World.view, hplain, List.not_mem_nil, if_false]
    rfl

theorem follow_describeObjects (f : String → Program α) :
    follow engine (describeObjects >>= f) w = follow engine (f w.view.links) w := by
  have hids : w.answer? engine .objectIds = some (w, .ok w.store.objectIds) := rfl
  have hread := follow_of_ok (f := fun ids => (readLinks (Links.described ids) >>= fun links =>
    pure (Links.text links)) >>= f) hids nofun nofun
  refine Eq.trans hread ?_
  rw [bind_assoc, follow_readLinks hquiet hplain]
  rfl

variable {setup : Setup} {found : Servers} (hfound : w.view.servers? setup.hosts = some found)

include hfound

theorem follow_requireServers (f : Except Error Servers → Program α) :
    follow engine (requireServers setup >>= f) w = follow engine (f (.ok found)) w := by
  rw [requireServers, bind_assoc, follow_findServers hquiet hplain, hfound]
  rfl

theorem follow_requireManagement (f : Except Error ManagementServer → Program α) :
    follow engine (requireManagement setup >>= f) w =
      follow engine (f found.theManagement) w := by
  rw [requireManagement, bind_assoc, follow_requireServers hquiet hplain hfound]
  rfl

theorem follow_knowsManagement (f : Bool → Program α) :
    follow engine (knowsManagement setup >>= f) w =
      follow engine (f !found.management.isEmpty) w := by
  rw [knowsManagement, bind_assoc, follow_findServers hquiet hplain, hfound]
  rfl

theorem follow_requireBootstrap (f : Except Error (ServerInfo × SocketAddress) → Program α) :
    follow engine (requireBootstrap setup >>= f) w =
      follow engine
        (f (match found.theBootstrap with
          | none => .error (.unconfigured .bootstrapServer)
          | some server => server.requireAddress.map fun address => (server, address))) w := by
  rw [requireBootstrap, bind_assoc, follow_requireServers hquiet hplain hfound]
  dsimp only
  cases found.theBootstrap <;> rfl

/-- Where the only management server is usable, it is asked for a registration. -/
theorem follow_sendRegister_of_usable {server : ManagementServer}
    (hserver : found.theManagement = .ok server) (husable : server.isUsable = true)
    (f : Except Error (String × UInt64) → Program α) :
    ∃ address lifetime binding, server.info.address = some address ∧ ∃ next,
      follow engine (sendRegister setup >>= f) w =
        (w, .asking (.send address server.info.isSecure
          (.register setup.settings.endpoint lifetime binding w.view.links)
          setup.settings.requestTimeout) next) := by
  obtain ⟨⟨⟨lifetime, binding⟩, hparameters⟩, address, haddress⟩ := isUsable_iff.mp husable
  refine ⟨address, lifetime, binding.text, haddress, ?_⟩
  rw [sendRegister, bind_assoc, follow_requireManagement hquiet hplain hfound, hserver]
  simp only [hparameters]
  rw [bind_assoc, follow_describeObjects hquiet hplain]
  simp only [ask, ServerInfo.requireAddress, haddress]
  rw [bind_assoc, bind_assoc, follow_line hquiet, bind_assoc]
  exact ⟨_, rfl⟩

/-- Where none is, registering fails before anything is sent. -/
theorem follow_sendRegister_of_unusable
    (hunusable : ∀ server, found.theManagement = .ok server → server.isUsable = false)
    (f : Except Error (String × UInt64) → Program α) :
    ∃ error, follow engine (sendRegister setup >>= f) w =
      follow engine (f (.error error)) w := by
  rw [sendRegister, bind_assoc, follow_requireManagement hquiet hplain hfound]
  cases hserver : found.theManagement with
  | error error => exact ⟨error, rfl⟩
  | ok server =>
    dsimp only
    cases hparameters : registerParameters server with
    | error error => exact ⟨error, rfl⟩
    | ok parameters =>
      have haddress : server.info.address = none := by
        by_contra hsome
        obtain ⟨address, haddress⟩ := Option.ne_none_iff_exists'.mp hsome
        have husable := isUsable_iff.mpr ⟨⟨parameters, hparameters⟩, address, haddress⟩
        cases husable.symm.trans (hunusable server hserver)
      dsimp only
      rw [bind_assoc, follow_describeObjects hquiet hplain]
      simp only [ask, ServerInfo.requireAddress, haddress]
      exact ⟨_, rfl⟩

theorem follow_bootstrapNow_of_none
    (hnone : ∀ server, found.theBootstrap = some server → server.address = none)
    (f : Bool → Program α) :
    follow engine (bootstrapNow setup >>= f) w = follow engine (f false) w := by
  rw [bootstrapNow, bind_assoc, follow_requireBootstrap hquiet hplain hfound]
  cases hserver : found.theBootstrap with
  | none => exact follow_line hquiet _ _
  | some server =>
    simp only [ServerInfo.requireAddress, hnone server hserver, Except.map]
    exact follow_line hquiet _ _

end

/-! ### Keeping the registration up -/

namespace World

/-- A world in which an engine holds a registration. -/
def holding (w : World) (e : Nat) (r : Registration) : World :=
  { w with engines := w.engines.modify e fun s => { s with registration := r } }

theorem client_holding (h : w.engine? e = some s) (r : Registration) :
    (w.holding e r).client (some e) = ⟨r, w.gate, w.scheduler⟩ := by
  have hengine : (w.holding e r).engine? e = some { s with registration := r } := by
    change (w.engines.modify e _)[e]? = _
    rw [Array.getElem?_modify, if_pos rfl]
    exact congrArg (Option.map _) h
  simp only [client, Option.bind_some, hengine]
  rfl

theorem withClient_holding (w : World) (e : Nat) (r : Registration) (c : Client Task) :
    (w.holding e r).withClient (some e) c =
      { w.holding e c.registration with gate := c.gate, scheduler := c.scheduler } := by
  have hengines : ((w.engines.modify e fun s => { s with registration := r }).modify e fun s =>
      { s with registration := c.registration }) =
      w.engines.modify e fun s => { s with registration := c.registration } := by
    apply Array.ext_getElem?
    intro i
    simp only [Array.getElem?_modify]
    split
    · rw [Option.map_map]
      rfl
    · rfl
  simp only [withClient, holding, hengines]

end World

section

variable (hquiet : w.level = none) (h : w.engine? e = some s)

include hquiet h

/-- A call that the client answers is followed by what the program does with the answer. -/
theorem follow_reply {c : Call} {f : c.Answer → Program α} {reply : Client.Reply Task c.Answer}
    (hanswer : ∀ x : World, x.answer? (some e) c =
      ((x.client (some e)).answer? (fun work => .work e work) c).map fun reply =>
        ((x.withClient (some e) reply.client).report reply.lines, .ok reply.answer))
    (hreply : Client.answer? (fun work => Task.work e work)
      ⟨r, w.gate, w.scheduler⟩ c = some reply)
    (hacquire : c ≠ .acquire) (hrelease : c ≠ .release) :
    follow (some e) (.call c f) (w.holding e r) =
      follow (some e) (f reply.answer)
        ({ w with gate := reply.client.gate, scheduler := reply.client.scheduler }.holding e
          reply.client.registration) := by
  refine follow_of_ok ?_ hacquire hrelease
  rw [hanswer, World.client_holding h, hreply, Option.map_some, World.withClient_holding]
  let x : World :=
    { w with gate := reply.client.gate, scheduler := reply.client.scheduler }.holding e
      reply.client.registration
  have hsame : x.level = none := hquiet
  exact congrArg (fun x => some (x, _)) (World.report_of_quiet hsame reply.lines)

theorem follow_registration (f : Registration → Program α) :
    follow (some e) (registration >>= f) (w.holding e r) =
      follow (some e) (f r) (w.holding e r) :=
  follow_reply hquiet h (c := .registration) (f := f) (fun _ => rfl) rfl nofun nofun

theorem follow_setRegistration (r' : Registration) (f : Unit → Program α) :
    follow (some e) (perform (.setRegistration r') >>= f) (w.holding e r) =
      follow (some e) (f ()) (w.holding e r') :=
  follow_reply hquiet h (c := .setRegistration r') (f := f) (fun _ => rfl) rfl nofun nofun

theorem follow_openSession (server : ServerInfo) (f : Bool → Program α) :
    follow (some e) (perform (.openSession server) >>= f) (w.holding e r) =
      follow (some e) (f (w.gate.tryOpen server).result)
        ({ w with gate := (w.gate.tryOpen server).gate }.holding e r) :=
  follow_reply hquiet h (c := .openSession server) (f := f) (fun _ => rfl) rfl nofun nofun

theorem follow_modify (g : Registration → Registration) (f : Unit → Program α) :
    follow (some e) (modify g >>= f) (w.holding e r) =
      follow (some e) (f ()) (w.holding e (g r)) :=
  (follow_registration hquiet h _).trans (follow_setRegistration hquiet h (g r) f)

/-- What is done about an event once the registration is read. -/
def entering (event : LifecycleEvent) (r : Registration) : Program Unit :=
  match r.lifecycle.step? event with
  | some next => do
    if next ≠ r.lifecycle then log (.entered next)
    perform (.setRegistration { r with lifecycle := next })
  | none => log (.unexpectedEvent event r.lifecycle)

/-- An event of the lifecycle leaves the renewal alone. -/
theorem follow_fire (event : LifecycleEvent) (f : Unit → Program α) :
    ∃ r', r'.renewal = r.renewal ∧
      follow (some e) (fire event >>= f) (w.holding e r) =
        follow (some e) (f ()) (w.holding e r') := by
  have hread := follow_registration hquiet h (r := r) fun r => entering event r >>= f
  cases hstep : r.lifecycle.step? event with
  | none =>
    simp only [entering, hstep] at hread
    exact ⟨r, rfl, hread.trans (follow_line (w := w.holding e r) hquiet _ f)⟩
  | some next =>
    simp only [entering, hstep] at hread
    refine ⟨{ r with lifecycle := next }, rfl, hread.trans ?_⟩
    by_cases hsame : next ≠ r.lifecycle
    · rw [if_pos hsame]
      exact (follow_line (w := w.holding e r) hquiet _ _).trans
        (follow_setRegistration hquiet h _ f)
    · rw [if_neg hsame]
      exact follow_setRegistration hquiet h _ f

/-- Where no renewal waits, none is taken out of the timeline. -/
theorem follow_cancelRenewal (hrenewal : r.renewal = none) (f : Unit → Program α) :
    follow (some e) (cancelRenewal >>= f) (w.holding e r) =
      follow (some e) (f ())
        (w.holding e { r with generation := r.generation + 1, renewal := none }) := by
  let drop : Program Unit := do
    perform (.setRegistration { r with generation := r.generation + 1, renewal := none })
    cancelAny r.renewal
  have hdrop : follow (some e) (cancelRenewal >>= f) (w.holding e r) =
      follow (some e) (drop >>= f) (w.holding e r) := follow_registration hquiet h _
  have hcancel : (cancelAny r.renewal >>= f) = f () := by
    rw [hrenewal]
    rfl
  rw [hdrop, ← hcancel]
  exact follow_setRegistration hquiet h _ _

theorem follow_forget (hrenewal : r.renewal = none) (f : Unit → Program α) :
    ∃ r', r'.renewal = none ∧
      follow (some e) (forget >>= f) (w.holding e r) =
        follow (some e) (f ()) (w.holding e r') := by
  let dropped : Registration :=
    { r with id := none, generation := r.generation + 1, renewal := none }
  obtain ⟨r', hsame, hfire⟩ := follow_fire hquiet h (r := dropped) .lost f
  refine ⟨r', hsame, ?_⟩
  rw [forget, bind_assoc, follow_modify hquiet h, bind_assoc,
    follow_cancelRenewal hquiet h (r := { r with id := none }) hrenewal]
  exact hfire

/-! ### What is asked for first -/

variable (hplain : w.disturbance = {})

include hplain

variable {setup : Setup} {found : Servers} (hfound : w.view.servers? setup.hosts = some found)

include hfound

theorem follow_registerNow_of_usable {server : ManagementServer}
    (hserver : found.theManagement = .ok server) (husable : server.isUsable = true)
    (f : Bool → Program α) :
    ∃ r' address lifetime binding, server.info.address = some address ∧ ∃ next,
      follow (some e) (registerNow setup >>= f) (w.holding e r) =
        (w.holding e r', .asking (.send address server.info.isSecure
          (.register setup.settings.endpoint lifetime binding w.view.links)
          setup.settings.requestTimeout) next) := by
  rw [registerNow, bind_assoc]
  obtain ⟨r', -, hfire⟩ := follow_fire hquiet h (r := r) .register _
  rw [hfire, bind_assoc]
  obtain ⟨address, lifetime, binding, haddress, hsent⟩ :=
    follow_sendRegister_of_usable (w := w.holding e r') hquiet hplain hfound hserver husable _
  exact ⟨r', address, lifetime, binding, haddress, hsent⟩

theorem follow_registerNow_of_unusable (hrenewal : r.renewal = none)
    (hunusable : ∀ server, found.theManagement = .ok server → server.isUsable = false)
    (f : Bool → Program α) :
    ∃ r', r'.renewal = none ∧ follow (some e) (registerNow setup >>= f) (w.holding e r) =
      follow (some e) (f false) (w.holding e r') := by
  rw [registerNow, bind_assoc]
  obtain ⟨fired, hsame, hfire⟩ := follow_fire hquiet h (r := r) .register _
  rw [hfire, bind_assoc]
  obtain ⟨error, hfailed⟩ :=
    follow_sendRegister_of_unusable (w := w.holding e fired) hquiet hplain hfound hunusable _
  rw [hfailed]
  dsimp only
  rw [bind_assoc, follow_line (w := w.holding e fired) hquiet, bind_assoc]
  exact follow_forget hquiet h (hsame.trans hrenewal) _

theorem follow_bootstrapNow_of_address {server : ServerInfo} {address : SocketAddress}
    (hserver : found.theBootstrap = some server) (haddress : server.address = some address)
    (hclosed : w.gate.session = .closed) (f : Bool → Program α) :
    ∃ r' next, follow (some e) (bootstrapNow setup >>= f) (w.holding e r) =
      ({ w with gate := (w.gate.tryOpen server).gate }.holding e r',
        .asking (.send address server.isSecure (.bootstrap setup.settings.endpoint)
          setup.settings.requestTimeout) next) := by
  have hopened : (w.gate.tryOpen server).result = true := by simp only [Gate.tryOpen, hclosed]
  rw [bootstrapNow, bind_assoc, follow_requireBootstrap (w := w.holding e r) hquiet hplain hfound]
  simp only [hserver, ServerInfo.requireAddress, haddress, Except.map]
  rw [bind_assoc, follow_openSession hquiet h, hopened]
  simp only [Bool.not_true, Bool.false_eq_true, if_false]
  rw [bind_assoc]
  obtain ⟨r', -, hfire⟩ :=
    follow_fire (w := { w with gate := (w.gate.tryOpen server).gate }) hquiet h (r := r)
    .bootstrap _
  rw [hfire]
  exact ⟨r', _, rfl⟩

/-- Where no management server is usable, a start leads to a bootstrap, whether
registering was tried or not. -/
theorem follow_startNow_of_unusable (hrenewal : r.renewal = none)
    (hunusable : ∀ server, found.theManagement = .ok server → server.isUsable = false)
    (f : Bool → Program α) :
    ∃ r', r'.renewal = none ∧ follow (some e) (startNow setup >>= f) (w.holding e r) =
      follow (some e) (bootstrapNow setup >>= f) (w.holding e r') := by
  rw [startNow, bind_assoc, follow_line (w := w.holding e r) hquiet, bind_assoc,
    follow_knowsManagement (w := w.holding e r) hquiet hplain hfound]
  cases found.management.isEmpty with
  | true => exact ⟨r, hrenewal, rfl⟩
  | false =>
    simp only [Bool.not_false, if_true, bind_assoc]
    exact follow_registerNow_of_unusable hquiet h hplain hfound hrenewal hunusable _

theorem follow_startNow_of_usable {server : ManagementServer}
    (hserver : found.theManagement = .ok server) (husable : server.isUsable = true)
    (f : Bool → Program α) :
    ∃ r' address lifetime binding, server.info.address = some address ∧ ∃ next,
      follow (some e) (startNow setup >>= f) (w.holding e r) =
        (w.holding e r', .asking (.send address server.info.isSecure
          (.register setup.settings.endpoint lifetime binding w.view.links)
          setup.settings.requestTimeout) next) := by
  have hknown : found.management.isEmpty = false := by
    rw [theManagement_eq_ok hserver]
    rfl
  rw [startNow, bind_assoc, follow_line (w := w.holding e r) hquiet, bind_assoc,
    follow_knowsManagement (w := w.holding e r) hquiet hplain hfound, hknown]
  simp only [Bool.not_false, if_true, bind_assoc]
  exact follow_registerNow_of_usable hquiet h hplain hfound hserver husable _

end

/-! ### The start of an engine -/

/-- An engine that was just made is about to start in a world that is neither
disturbed nor shown in a log. -/
structure IsFresh (w : World) (e : Nat) (s : EngineState) : Prop where
  quiet : w.level = none
  plain : w.disturbance = {}
  closed : w.gate.session = .closed
  free : e ∉ w.busy
  engine : w.engine? e = some s
  renewal : s.registration.renewal = none

theorem World.holding_self (h : w.engine? e = some s) : w.holding e s.registration = w := by
  have hengines :
      (w.engines.modify e fun s' => { s' with registration := s.registration }) = w.engines := by
    refine modify_eq_self fun s' hs' => ?_
    obtain rfl := Option.some.inj (hs'.symm.trans h)
    rfl
  simp only [holding, hengines]

namespace IsFresh

/-- The end of an operation that had the engine to itself. -/
def letGo (result : Bool) : Program Bool := do
  perform .release
  return result

/-- The world in which the engine is taken for an operation. -/
def held (w : World) (e : Nat) : World := { w with busy := e :: w.busy }

theorem follow_start (h : IsFresh w e s) (setup : Setup) :
    follow (some e) (Engine.work setup .start) w =
      follow (some e) (startNow setup >>= letGo) ((held w e).holding e s.registration) := by
  have hheld : (held w e).engine? e = some s := h.engine
  rw [World.holding_self hheld]
  change follow (some e) (.call .acquire fun _ => startNow setup >>= letGo) w = _
  simp only [follow, if_neg h.free]
  rfl

variable {setup : Setup} {found : Servers}

theorem start_of_usable (h : IsFresh w e s) (hfound : w.view.servers? setup.hosts = some found)
    {server : ManagementServer} (hserver : found.theManagement = .ok server)
    (husable : server.isUsable = true) :
    ∃ w' address lifetime binding, server.info.address = some address ∧ ∃ next,
      follow (some e) (Engine.work setup .start) w =
        (w', .asking (.send address server.info.isSecure
          (.register setup.settings.endpoint lifetime binding w.view.links)
          setup.settings.requestTimeout) next) := by
  have hquiet : (held w e).level = none := h.quiet
  have hplain : (held w e).disturbance = {} := h.plain
  obtain ⟨r, address, lifetime, binding, haddress, hsent⟩ :=
    follow_startNow_of_usable hquiet h.engine hplain hfound
      (r := s.registration) hserver husable letGo
  exact ⟨_, address, lifetime, binding, haddress, h.follow_start setup ▸ hsent⟩

variable (hunusable : ∀ server, found.theManagement = .ok server → server.isUsable = false)

include hunusable

theorem start_of_address (h : IsFresh w e s) (hfound : w.view.servers? setup.hosts = some found)
    {server : ServerInfo} {address : SocketAddress} (hserver : found.theBootstrap = some server)
    (haddress : server.address = some address) :
    ∃ w' next, follow (some e) (Engine.work setup .start) w =
      (w', .asking (.send address server.isSecure
        (.bootstrap setup.settings.endpoint) setup.settings.requestTimeout) next) := by
  have hquiet : (held w e).level = none := h.quiet
  have hplain : (held w e).disturbance = {} := h.plain
  obtain ⟨r, -, hstart⟩ :=
    follow_startNow_of_unusable hquiet h.engine hplain hfound h.renewal hunusable letGo
  obtain ⟨r', next, hsent⟩ :=
    follow_bootstrapNow_of_address hquiet h.engine hplain hfound (r := r) hserver haddress
    h.closed letGo
  exact ⟨_, next, (h.follow_start setup).trans (hstart.trans hsent)⟩

/-- Where no server can be reached, the engine gives up at once, and leaves nothing on the
timeline. -/
theorem start_of_none (h : IsFresh w e s) (hfound : w.view.servers? setup.hosts = some found)
    (hnone : ∀ server, found.theBootstrap = some server → server.address = none) :
    ∃ r, follow (some e) (Engine.work setup .start) w =
      (((held w e).holding e r).release e, .finished false) := by
  have hquiet : (held w e).level = none := h.quiet
  have hplain : (held w e).disturbance = {} := h.plain
  obtain ⟨r, -, hstart⟩ :=
    follow_startNow_of_unusable hquiet h.engine hplain hfound h.renewal hunusable letGo
  have hgivenUp : follow (some e) (bootstrapNow setup >>= letGo) ((held w e).holding e r) = _ :=
    follow_bootstrapNow_of_none (w := (held w e).holding e r) hquiet hplain hfound hnone letGo
  exact ⟨r, (h.follow_start setup).trans (hstart.trans hgivenUp)⟩

end IsFresh

end Lwm2mClient.Scenario
