import Lwm2mClient.Log
import Lwm2mClient.Net.Hosts
import Lwm2mClient.Store.Resources

/-!
Finding the servers of a client in its Security and Server objects. Each Security instance with a
URI that can be read gives one server; a device management server takes its lifetime and binding
from the first Server instance with the same short id.
-/
namespace Lwm2mClient.Extraction

open Net

/-- The address of a server, or why it has none. -/
def resolve (hosts : Hosts) (uri : ServerUri) : Except Error SocketAddress :=
  match hosts.find? uri.host with
  | some ip => .ok ⟨ip, uri.port, 0⟩
  | none => .error (.unconfigured (.resolution uri.host))

/-- The server URI of a Security instance. An absent one reads as the empty text. -/
def uriOf (security : ObjectInstance) : Except Error ServerUri :=
  match security.string SecurityResource.serverUri with
  | some text => ServerUri.read text
  | none => .error (.invalidUri "")

def shortIdOf (security : ObjectInstance) : Option UInt16 :=
  match security.integer SecurityResource.shortServerId with
  | some id => if 0 ≤ id ∧ id ≤ 65535 then some (UInt16.ofNat id.toInt.toNat) else none
  | none => none

def infoOf (hosts : Hosts) (security : ObjectInstance) (uri : ServerUri) : ServerInfo :=
  ⟨uri, (resolve hosts uri).toOption, shortIdOf security⟩

def isBootstrap (security : ObjectInstance) : Bool :=
  security.boolean SecurityResource.bootstrap = some true

/-- The Server instance that a short id refers to: the first one that has it. -/
def serverOf (servers : Object) (shortId : Option UInt16) : Option ObjectInstance :=
  shortId.bind fun id =>
    servers.instances.values.find? fun server =>
      server.integer ServerResource.shortServerId = some (Int64.ofNat id.toNat)

/-- A lifetime is an integer that is not negative. -/
def lifetimeOf (server : ObjectInstance) : Option UInt64 :=
  match server.integer ServerResource.lifetime with
  | some lifetime => if 0 ≤ lifetime then some (UInt64.ofNat lifetime.toInt.toNat) else none
  | none => none

def bindingOf (server : ObjectInstance) : Option BindingMode :=
  (server.string ServerResource.binding).bind BindingMode.ofText?

/-- The device management server that a server is, given the Server object. -/
def managementOf (servers : Object) (info : ServerInfo) : ManagementServer :=
  let server := serverOf servers info.shortId
  ⟨info, server.bind lifetimeOf, server.bind bindingOf⟩

/-- What a Security instance stands for. -/
inductive Entry where
  | bootstrap (info : ServerInfo)
  | management (server : ManagementServer)
  deriving DecidableEq

def entryOf (hosts : Hosts) (servers : Object) (security : ObjectInstance) : Except Error Entry :=
  (uriOf security).map fun uri =>
    let info := infoOf hosts security uri
    if isBootstrap security then .bootstrap info else .management (managementOf servers info)

def Entry.bootstrap? : Entry → Option ServerInfo
  | .bootstrap info => some info
  | .management _ => none

def Entry.management? : Entry → Option ManagementServer
  | .bootstrap _ => none
  | .management server => some server

/-- The servers that some entries stand for. -/
def serversOf (entries : List Entry) : Servers :=
  ⟨entries.filterMap Entry.bootstrap?, entries.filterMap Entry.management?⟩

/-- The servers found in a Security and a Server object. -/
def servers (hosts : Hosts) (securities servers : Object) : Servers :=
  serversOf (securities.instances.values.filterMap fun security =>
    (entryOf hosts servers security).toOption)

/-- What is reported where the binding of a Server instance is not known. -/
def bindingLines (server : ObjectInstance) : List Log.Line :=
  match server.string ServerResource.binding with
  | some text =>
    match BindingMode.ofText? text with
    | some _ => []
    | none => [.bindingUnknown server.id text]
  | none => []

/-- What is reported of a server while its entry is made. -/
def addressLines (hosts : Hosts) (uri : ServerUri) : List Log.Line :=
  match resolve hosts uri with
  | .ok _ => []
  | .error e => [.hostUnresolved uri e]

/-- What is reported of a device management server. -/
def parameterLines (servers : Object) (info : ServerInfo) : List Log.Line :=
  match serverOf servers info.shortId with
  | some server => bindingLines server
  | none => [.serverInstanceMissing info.shortId info.uri]

def entryLines (hosts : Hosts) (servers : Object) (security : ObjectInstance) : List Log.Line :=
  match uriOf security with
  | .error e => [.securitySkipped security.id e]
  | .ok uri =>
    addressLines hosts uri ++
      if isBootstrap security then [] else parameterLines servers (infoOf hosts security uri)

/-- What is reported of an extraction, the servers found at the end. -/
def lines (hosts : Hosts) (securities servers : Object) : List Log.Line :=
  securities.instances.values.flatMap (entryLines hosts servers) ++
    [.serversFound (Extraction.servers hosts securities servers)]

end Lwm2mClient.Extraction
