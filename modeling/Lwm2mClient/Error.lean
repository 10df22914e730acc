import Lwm2mClient.ResponseCode
import Lwm2mClient.ServerUri

/-!
What can go wrong between the client and its servers, by cause, with one message for each cause.
-/
namespace Lwm2mClient

/-- What is missing where the client is not configured for what it was asked to do. -/
inductive Missing where
  /-- The Security or the Server object is not hosted. -/
  | objects
  | bootstrapServer
  | deviceManagementServer
  | address (uri : ServerUri)
  | lifetime (uri : ServerUri)
  | lifetimeOrBinding (uri : ServerUri)
  /-- A host that has no address. -/
  | resolution (host : String)
  | other (text : String)
  deriving DecidableEq

def Missing.text : Missing → String
  | objects => "no security or server object"
  | bootstrapServer => "no bootstrap server"
  | deviceManagementServer => "no device management server"
  | address uri => "no address for " ++ uri.text
  | lifetime uri => "no lifetime for " ++ uri.text
  | lifetimeOrBinding uri => "no lifetime or binding for " ++ uri.text
  | resolution host => "cannot resolve `" ++ host ++ "`"
  | other text => text

inductive Error where
  /-- The peer did not answer in time. -/
  | timeout
  | rejected (code : ResponseCode)
  | unconfigured (missing : Missing)
  | sessionConflict
  | unsupportedServers (count : Nat)
  | invalidUri (uri : String)
  deriving DecidableEq

def Error.message : Error → String
  | timeout => "no response from peer (timeout)"
  | rejected code => "request rejected: " ++ code.text
  | unconfigured missing => "not configured: " ++ missing.text
  | sessionConflict => "a bootstrap session is already active"
  | unsupportedServers count =>
    toString count ++ " device management servers configured, exactly one is supported"
  | invalidUri uri => "invalid server URI `" ++ uri ++ "`"

/-- Reads a server URI, or says which text is none. -/
def ServerUri.read (s : String) : Except Error ServerUri :=
  match ServerUri.ofText? s with
  | some uri => .ok uri
  | none => .error (.invalidUri s)

end Lwm2mClient
