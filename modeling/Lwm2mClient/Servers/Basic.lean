import Lwm2mClient.BindingMode
import Lwm2mClient.Error
import Lwm2mClient.Net.SocketAddress
import Lwm2mClient.Text.Quoted

/-!
The servers that a client knows: bootstrap servers and device management servers, each list in the
order in which the Security object names them.
-/
namespace Lwm2mClient

open Net

structure ServerInfo where
  uri : ServerUri
  /-- Absent when the host has no address. -/
  address : Option SocketAddress
  shortId : Option UInt16
  deriving DecidableEq

namespace ServerInfo

/-- A server is reached over a secure transport iff its scheme says so. -/
def isSecure (s : ServerInfo) : Bool := s.uri.scheme = .coaps

def requireAddress (s : ServerInfo) : Except Error SocketAddress :=
  match s.address with
  | some address => .ok address
  | none => .error (.unconfigured (.address s.uri))

end ServerInfo

/-- A device management server with its registration parameters, absent where no Server instance
gives them. -/
structure ManagementServer where
  info : ServerInfo
  /-- In seconds. -/
  lifetime : Option UInt64
  binding : Option BindingMode
  deriving DecidableEq

/-- Whether a client can register with a server. -/
def ManagementServer.isUsable (s : ManagementServer) : Bool :=
  s.info.address.isSome && s.lifetime.isSome && s.binding.isSome

structure Servers where
  bootstrap : List ServerInfo
  management : List ManagementServer
  deriving DecidableEq

namespace Servers

/-- The bootstrap server that is asked: the first one. -/
def theBootstrap (s : Servers) : Option ServerInfo := s.bootstrap.head?

/-- The device management server that the client registers with; there has to be exactly one. -/
def theManagement (s : Servers) : Except Error ManagementServer :=
  match s.management with
  | [] => .error (.unconfigured .deviceManagementServer)
  | [server] => .ok server
  | several => .error (.unsupportedServers several.length)

def text (s : Servers) : String :=
  "Servers [bs=" ++ Text.Quoted.encodeList (s.bootstrap.map fun b => b.uri.text) ++ ", dm=" ++
    Text.Quoted.encodeList (s.management.map fun m => m.info.uri.text) ++ "]"

end Servers
end Lwm2mClient
