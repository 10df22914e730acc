import Lwm2mClient.Bootstrap.Gate

/-!
The endpoints on which a bootstrap server reaches the client: how its messages are answered and
what is reported of those that are refused.
-/
namespace Lwm2mClient.BootstrapEndpoint

open Net

/-- The answer to a finish message. -/
def finishCode : Except Rejection Unit → ResponseCode
  | .ok () => .changed
  | .error _ => .badRequest

def finishLines (sender : SocketAddress) : Except Rejection Unit → List Log.Line
  | .ok () => []
  | .error rejection => [.finishRejected sender rejection]

/-- The answer to a delete message. -/
def deleteCode : Except Rejection Unit → ResponseCode
  | .ok () => .deleted
  | .error _ => .methodNotAllowed

def deleteLines (sender : SocketAddress) : Except Rejection Unit → List Log.Line
  | .ok () => []
  | .error rejection => [.purgeRejected sender rejection]

end Lwm2mClient.BootstrapEndpoint
