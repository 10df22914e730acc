/-!
Why an inbound bootstrap message is refused.
-/
namespace Lwm2mClient

inductive Rejection where
  | notFromBootstrapServer
  | noPendingSession
  /-- A delete of anything but the root. -/
  | notAllowed (path : String)
  deriving DecidableEq

def Rejection.message : Rejection → String
  | notFromBootstrapServer => "not from the bootstrap server"
  | noPendingSession => "no pending bootstrap session"
  | notAllowed path => "bootstrap delete not allowed on `" ++ path ++ "`"

end Lwm2mClient
