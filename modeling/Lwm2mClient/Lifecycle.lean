/-!
Where a client stands with respect to its device management server, and how it moves. A
step is a partial function of the state and the event alone; an event that is not
expected in a state leads nowhere.
-/
namespace Lwm2mClient

inductive Lifecycle where
  | unregistered
  | bootstrapping
  | registering
  | registered
  | updating
  | deregistering
  deriving DecidableEq

def Lifecycle.name : Lifecycle → String
  | unregistered => "Unregistered"
  | bootstrapping => "Bootstrapping"
  | registering => "Registering"
  | registered => "Registered"
  | updating => "Updating"
  | deregistering => "Deregistering"

/-- What happens in the course of lifecycle work. -/
inductive LifecycleEvent where
  /-- A session is open and the bootstrap request is about to be sent. -/
  | bootstrap
  /-- A register request is about to be sent. -/
  | register
  /-- The server created or refreshed the registration. -/
  | registered
  /-- A registration update is about to be sent. -/
  | update
  /-- A deregister request is about to be sent. -/
  | deregister
  /-- The deregister request failed and the registration is kept. -/
  | retained
  /-- The registration is gone. -/
  | lost
  deriving DecidableEq

def LifecycleEvent.name : LifecycleEvent → String
  | bootstrap => "Bootstrap"
  | register => "Register"
  | registered => "Registered"
  | update => "Update"
  | deregister => "Deregister"
  | retained => "Retained"
  | lost => "Lost"

/-- The state that an event leads to. -/
def Lifecycle.step? : Lifecycle → LifecycleEvent → Option Lifecycle
  | bootstrapping, .bootstrap => none
  | _, .bootstrap => some bootstrapping
  | deregistering, .register => none
  | _, .register => some registering
  | registering, .registered => some registered
  | updating, .registered => some registered
  | registered, .update => some updating
  | registered, .deregister => some deregistering
  | deregistering, .retained => some registered
  | _, .lost => some unregistered
  | _, _ => none

end Lwm2mClient
