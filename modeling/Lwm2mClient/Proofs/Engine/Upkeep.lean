import Lwm2mClient.Engine.Operations
import Lwm2mClient.Proofs.Programs

/-!
The parts of lifecycle work that concern the registration and its renewal alone. They
ask for nothing but what the client knows itself, and report nothing but where the
lifecycle and the renewal stand.
-/
namespace Lwm2mClient

open Program

/-- Whether a line tells where the lifecycle or the renewal stands. -/
def Log.Line.isUpkeep : Log.Line → Bool
  | entered _ | unexpectedEvent .. | nextUpdate _ => true
  | _ => false

/-- The calls that change the registration and its renewal. -/
def Call.isUpkeep : Call → Prop
  | .registration | .setRegistration _ | .schedule .. | .cancelTask _ => True
  | .log line => line.isUpkeep
  | _ => False

namespace Engine

theorem modify_upkeep (f : Registration → Registration) :
    (modify f).Asks Call.isUpkeep fun _ => True :=
  (Asks.perform trivial).bind fun _ _ => Asks.perform trivial

theorem log_upkeep {line : Log.Line} (h : line.isUpkeep = true) :
    (log line).Asks Call.isUpkeep fun _ => True :=
  Asks.log h

theorem fire_upkeep (event : LifecycleEvent) : (fire event).Asks Call.isUpkeep fun _ => True := by
  refine (Asks.perform trivial).bind fun r _ => ?_
  split
  · split
    · exact (log_upkeep rfl).bind fun _ _ => Asks.perform trivial
    · exact Asks.perform trivial
  · exact log_upkeep rfl

theorem cancelAny_upkeep (handle : Option TaskHandle) :
    (cancelAny handle).Asks Call.isUpkeep fun _ => True := by
  cases handle with
  | none => exact trivial
  | some handle => exact Asks.perform trivial

theorem cancelRenewal_upkeep : cancelRenewal.Asks Call.isUpkeep fun _ => True :=
  (Asks.perform trivial).bind fun r _ =>
    (Asks.perform trivial).bind fun _ _ => cancelAny_upkeep r.renewal

theorem planRenewal_upkeep (setup : Setup) (lifetime : UInt64) :
    (planRenewal setup lifetime).Asks Call.isUpkeep fun _ => True := by
  refine (log_upkeep rfl).bind fun _ _ => ?_
  refine (modify_upkeep _).bind fun _ _ => ?_
  refine (Asks.perform trivial).bind fun r _ => ?_
  refine (Asks.perform trivial).bind fun handle _ => ?_
  exact (Asks.perform trivial).bind fun _ _ => cancelAny_upkeep r.renewal

theorem forget_upkeep : forget.Asks Call.isUpkeep fun _ => True :=
  (modify_upkeep _).bind fun _ _ => cancelRenewal_upkeep.bind fun _ _ => fire_upkeep .lost

end Engine
end Lwm2mClient
