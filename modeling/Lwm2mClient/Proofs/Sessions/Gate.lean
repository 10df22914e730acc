import Lwm2mClient.Bootstrap.Gate

/-!
The operations of the gate of sessions, one by one: when each is accepted, and what it leaves
behind.
-/
namespace Lwm2mClient.Gate

open Net

variable {g : Gate} {peer : ServerInfo} {sender : SocketAddress} {number : Nat}

/-- The gate with a new session. -/
def openedWith (g : Gate) (peer : ServerInfo) : Gate :=
  { g with
    session := .active peer (g.opened + 1)
    opened := g.opened + 1
    unclaimed := some ⟨g.opened + 1, false⟩ }

theorem tryOpen_of_closed (h : g.session = .closed) (peer : ServerInfo) :
    (g.tryOpen peer).gate = g.openedWith peer ∧ (g.tryOpen peer).result = true := by
  constructor <;> simp only [tryOpen, h, openedWith]

theorem tryOpen_of_not_closed (h : g.session ≠ .closed) (peer : ServerInfo) :
    (g.tryOpen peer).gate = g ∧ (g.tryOpen peer).result = false := by
  unfold tryOpen
  split
  · contradiction
  · exact ⟨rfl, rfl⟩
  · exact ⟨rfl, rfl⟩

theorem tryOpen_claimed (g : Gate) (peer : ServerInfo) :
    (g.tryOpen peer).gate.claimed = g.claimed := by
  unfold tryOpen
  split <;> rfl

/-- A message is let in iff a session is open with a peer that has its sender's internet
address. -/
theorem letIn_eq_ok :
    g.letIn sender = .ok number ↔ ∃ peer address, g.session = .active peer number ∧
      peer.address = some address ∧ address.ip = sender.ip := by
  unfold letIn
  split
  · rename_i peer' number' hsession
    by_cases hfrom : peer'.address.any fun address => address.ip = sender.ip
    · rw [if_pos hfrom]
      obtain ⟨address, haddress, hip⟩ := (Option.any_eq_true _ _).mp hfrom
      constructor
      · intro h
        cases h
        exact ⟨peer', address, hsession, haddress, of_decide_eq_true hip⟩
      · rintro ⟨peer, address, hactive, -, -⟩
        rw [hsession] at hactive
        cases hactive
        rfl
    · rw [if_neg hfrom]
      constructor
      · intro h
        cases h
      · rintro ⟨peer, address, hactive, haddress, hip⟩
        rw [hsession] at hactive
        cases hactive
        rw [haddress] at hfrom
        exact absurd (decide_eq_true hip) hfrom
  · rename_i hsession
    constructor
    · intro h
      cases h
    · rintro ⟨peer, address, hactive, -, -⟩
      exact absurd hactive (hsession peer number)

theorem finish_of_letIn (h : g.letIn sender = .ok number) :
    (g.finish sender).result = .ok () ∧ (g.finish sender).gate =
      { g with
        unclaimed := g.unclaimed.map (Completion.finish number)
        claimed := g.claimed.map (Completion.finish number) } := by
  constructor <;> simp only [finish, h]

theorem finish_of_refused {rejection : Rejection} (h : g.letIn sender = .error rejection) :
    (g.finish sender).result = .error rejection ∧ (g.finish sender).gate = g := by
  constructor <;> simp only [finish, h]

/-- A finish message is accepted iff it is let in. -/
theorem finish_accepted_iff :
    (g.finish sender).result = .ok () ↔ ∃ peer number address,
      g.session = .active peer number ∧ peer.address = some address ∧ address.ip = sender.ip := by
  cases h : g.letIn sender with
  | ok number =>
    obtain ⟨peer, address, hpeer⟩ := letIn_eq_ok.mp h
    exact iff_of_true (finish_of_letIn h).1 ⟨peer, number, address, hpeer⟩
  | error rejection =>
    rw [(finish_of_refused h).1]
    constructor
    · intro heq
      cases heq
    · rintro ⟨peer, number, address, hpeer⟩
      rw [letIn_eq_ok.mpr ⟨peer, address, hpeer⟩] at h
      cases h

theorem close_claimed (g : Gate) : g.close.gate.claimed = g.claimed := by
  unfold close
  split <;> rfl

/-- Closing leaves no session and nothing to wait for, unless the gate is broken. -/
theorem close_gate (h : ∀ number, g.session ≠ .broken number) :
    g.close.gate = { g with session := .closed, unclaimed := none } := by
  unfold close
  split
  · rename_i hclosed
    simp only [hclosed]
  · rfl
  · rename_i number hbroken
    exact absurd hbroken (h number)

theorem isActive_close (g : Gate) : g.close.gate.isActive = false := by
  unfold close
  split
  · rename_i hclosed
    simp only [isActive, hclosed]
  · rfl
  · rename_i hbroken
    simp only [isActive, hbroken]

theorem peer_of_shut (h : g.isActive = false) : g.peer = none := by
  unfold peer
  split
  · rename_i hactive
    simp only [isActive, hactive] at h
    cases h
  · rfl

/-- Without a session every message is refused. -/
theorem letIn_of_shut (h : g.isActive = false) (sender : SocketAddress) :
    g.letIn sender = .error .noPendingSession := by
  unfold letIn
  split
  · rename_i hactive
    simp only [isActive, hactive] at h
    cases h
  · rfl

end Lwm2mClient.Gate
