import Lwm2mClient.Store.Basic
import Lwm2mClient.Store.Resources

/-!
How a device is provisioned with its servers: instances of the Security and the Server object
built from the values that a server needs.
-/
namespace Lwm2mClient

/-- What an instance of the Security object is provisioned with. -/
structure Security where
  serverUri : String
  bootstrapServer : Bool
  securityMode : Int64
  identity : Bytes := []
  serverPublicKey : Bytes := []
  secretKey : Bytes := []
  shortServerId : Option UInt16 := none

namespace Security

/-- A bootstrap server without transport security. -/
def plainBootstrap (uri : String) : Security :=
  { serverUri := uri, bootstrapServer := true, securityMode := 3 }

/-- A device management server without transport security. -/
def plain (uri : String) (shortId : UInt16) : Security :=
  { serverUri := uri, bootstrapServer := false, securityMode := 3, shortServerId := some shortId }

/-- A device management server reached with a pre-shared key. -/
def preSharedKey (uri : String) (shortId : UInt16) (identity key : Bytes) : Security :=
  { plain uri shortId with
    securityMode := SecurityResource.preSharedKeyMode, identity := identity, secretKey := key }

/-- A device management server reached with raw public keys. -/
def rawPublicKey (uri : String) (shortId : UInt16) (identity key serverKey : Bytes) : Security :=
  { plain uri shortId with
    securityMode := 1, identity := identity, secretKey := key, serverPublicKey := serverKey }

def toInstance (s : Security) (id : NumericId) : ObjectInstance :=
  let resources : IdMap ResourceValue := .ofList [
    (SecurityResource.serverUri, .string s.serverUri),
    (SecurityResource.bootstrap, .boolean s.bootstrapServer),
    (SecurityResource.mode, .integer s.securityMode),
    (SecurityResource.identity, .opaqueBytes s.identity),
    (SecurityResource.serverPublicKey, .opaqueBytes s.serverPublicKey),
    (SecurityResource.secretKey, .opaqueBytes s.secretKey)]
  match s.shortServerId with
  | some shortId =>
    ⟨id, resources.insert SecurityResource.shortServerId (.integer (Int64.ofNat shortId.toNat))⟩
  | none => ⟨id, resources⟩

end Security

/-- What an instance of the Server object is provisioned with. -/
structure Server where
  shortServerId : UInt16
  lifetime : UInt64
  binding : String

namespace Server

/-- The largest integer a resource can hold. -/
def maxInteger : Nat := 9223372036854775807

/-- A lifetime that no resource can hold becomes the largest one that it can. -/
def toInstance (s : Server) (id : NumericId) : ObjectInstance :=
  ⟨id, .ofList [
    (ServerResource.shortServerId, .integer (Int64.ofNat s.shortServerId.toNat)),
    (ServerResource.lifetime, .integer (Int64.ofNat (min s.lifetime.toNat maxInteger))),
    (ServerResource.binding, .string s.binding)]⟩

end Server

namespace Store

def putSecurity (s : Store) (id : NumericId) (security : Security) : Store :=
  s.put ObjectId.security (security.toInstance id)

def putServer (s : Store) (id : NumericId) (server : Server) : Store :=
  s.put ObjectId.server (server.toInstance id)

end Store
end Lwm2mClient
