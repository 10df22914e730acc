import Lwm2mClient.ResponseCode
import Lwm2mClient.Text.Quoted

/-!
What the client asks of its servers, and what they answer. A missing answer means that the peer
stayed silent until the request timed out.
-/
namespace Lwm2mClient

inductive Request where
  | register (endpoint : String) (lifetime : UInt64) (binding links : String)
  | update (registration : String)
  | deregister (registration : String)
  | bootstrap (endpoint : String)
  deriving DecidableEq

/-- A request with its parameters, as it is written to the log. -/
def Request.text : Request → String
  | register endpoint lifetime binding links =>
    "Register \x7b endpoint: " ++ Text.Quoted.encode endpoint ++ ", lifetime: " ++
      toString lifetime.toNat ++ ", binding: " ++ Text.Quoted.encode binding ++
      ", object_links: " ++ Text.Quoted.encode links ++ " \x7d"
  | update registration =>
    "Update \x7b registration_id: " ++ Text.Quoted.encode registration ++ " \x7d"
  | deregister registration =>
    "Deregister \x7b registration_id: " ++ Text.Quoted.encode registration ++ " \x7d"
  | bootstrap endpoint => "Bootstrap \x7b endpoint: " ++ Text.Quoted.encode endpoint ++ " \x7d"

structure Response where
  code : ResponseCode
  /-- The id that a server gives to a registration that it created. -/
  registration : Option String := none
  deriving DecidableEq

end Lwm2mClient
