import Lwm2mClient.Lifecycle
import Lwm2mClient.Timeline.Basic

/-!
What a client keeps about its registration.
-/
namespace Lwm2mClient

structure Registration where
  lifecycle : Lifecycle := .unregistered
  /-- The id that the server gave to the registration. -/
  id : Option String := none
  /-- The task that renews the registration. -/
  renewal : Option TaskHandle := none
  /-- Grows whenever the renewal is replaced or cancelled. -/
  generation : Nat := 0
  deriving DecidableEq

instance : Inhabited Registration := ⟨{}⟩

/-- The work of an engine that waits on a timeline. -/
inductive Work where
  | start
  /-- Renews the registration, provided that the generation is still the same. -/
  | renewal (generation : Nat)
  deriving DecidableEq

end Lwm2mClient
