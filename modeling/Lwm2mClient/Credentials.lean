import Lwm2mClient.Servers.Extraction

/-!
Pre-shared keys for the secure transport. Both questions, which key belongs to an identity
and which identity to present to a peer, are answered by the first Security instance in
pre-shared key mode that fits.
-/
namespace Lwm2mClient.Credentials

open Net

/-- The Security instances in pre-shared key mode, in ascending order. -/
def candidates (securities : Object) : List ObjectInstance :=
  securities.instances.values.filter fun security =>
    security.integer SecurityResource.mode = some SecurityResource.preSharedKeyMode

/-- The key of an identity. -/
def key? (securities : Object) (identity : Bytes) : Option Bytes :=
  ((candidates securities).find? fun security =>
    security.bytes SecurityResource.identity = some identity).bind fun security =>
      security.bytes SecurityResource.secretKey

/-- The address of the server that an instance names. Here an absent URI reads as the empty
text. -/
def addressOf (hosts : Hosts) (security : ObjectInstance) : Except Error SocketAddress :=
  (ServerUri.read ((security.string SecurityResource.serverUri).getD "")).bind
    (Extraction.resolve hosts)

/-- Whether an instance names the server at an address. -/
def names (hosts : Hosts) (peer : SocketAddress) (security : ObjectInstance) : Bool :=
  (addressOf hosts security).toOption = some peer

/-- The identity to present to a peer. -/
def identity? (hosts : Hosts) (securities : Object) (peer : SocketAddress) : Option Bytes :=
  ((candidates securities).find? (names hosts peer)).bind fun security =>
    security.bytes SecurityResource.identity

/-- What is reported of one instance that was considered. -/
def addressLines (hosts : Hosts) (security : ObjectInstance) : List Log.Line :=
  match addressOf hosts security with
  | .ok _ => []
  | .error e => [.securityUnusable security.id e]

/-- What is reported while an identity is looked for: every instance without an address that comes
before the one that fits. -/
def identityLines (hosts : Hosts) (securities : Object) (peer : SocketAddress) : List Log.Line :=
  ((candidates securities).takeWhile fun security => !names hosts peer security).flatMap
    (addressLines hosts)

end Lwm2mClient.Credentials
