import Lwm2mClient.Credentials
import Lwm2mClient.Inspector.Arguments
import Lwm2mClient.Store.Links
import Lwm2mClient.Store.Provisioning
import Lwm2mClient.Text.Hex
import Lwm2mClient.Text.HexView
import Lwm2mClient.Text.Lines
import Lwm2mClient.Text.Outline

/-!
The inspector: it provisions a store from its arguments as a device would be provisioned in the
factory, and reports the servers found there, the credentials presented to them, the links of a
registration, and whether a client would register or bootstrap first. Nothing is sent.
-/
namespace Lwm2mClient.Inspector

open Net Text

/-- What a client does first. -/
inductive Decision where
  | register (server : ServerInfo)
  | bootstrap (server : ServerInfo)
  | nothing
  | unsupported (error : Error)
  deriving DecidableEq

namespace Decision

/-- Bootstrap with the first bootstrap server, if it has an address. -/
def ofBootstrap (servers : Servers) : Decision :=
  match servers.theBootstrap with
  | some server => if server.address.isSome then .bootstrap server else .nothing
  | none => .nothing

/-- Register where the only device management server is usable, else bootstrap where that is
possible. -/
def ofServers (servers : Servers) : Decision :=
  match servers.theManagement with
  | .ok server => if server.isUsable then .register server.info else ofBootstrap servers
  | .error (.unconfigured _) => ofBootstrap servers
  | .error e => .unsupported e

def exitCode : Decision → Nat
  | register _ | bootstrap _ => 0
  | nothing | unsupported _ => 1

end Decision

/-- Arguments that cannot be used. -/
inductive Misuse where
  | notNumeric (option value : String)
  | badKey (fault : Hex.Fault)

def Misuse.lines : Misuse → List String
  | notNumeric option value =>
    ["error: `" ++ option ++ "` needs to be a numeric value",
      "   --> `" ++ value ++ "` is not a valid value"]
  | badKey fault => ["error: `psk-key` is not a valid hex key: " ++ fault.message]

/-- The numbers among the arguments. -/
def numbers (a : Arguments) : Except Misuse (UInt16 × UInt64) :=
  match unsigned? 65535 a.shortId.toList with
  | none => .error (.notNumeric "short-id" a.shortId)
  | some shortId =>
    match unsigned? (UInt64.size - 1) a.lifetime.toList with
    | none => .error (.notNumeric "lifetime" a.lifetime)
    | some lifetime => .ok (UInt16.ofNat shortId, UInt64.ofNat lifetime)

/-- The Security instance of the device management server. -/
def managementSecurity (a : Arguments) (uri : String) (shortId : UInt16) :
    Except Misuse Security :=
  match a.value? .identity, a.value? .key with
  | some identity, some key =>
    match Hex.decode key with
    | .ok bytes => .ok (.preSharedKey uri shortId identity.toUTF8.toList bytes)
    | .error fault => .error (.badKey fault)
  | _, _ => .ok (.plain uri shortId)

/-- The store before any server is put into it. -/
def blankStore (endpoint : String) : Store :=
  (((({} : Store).host ObjectId.security).host ObjectId.server).put ObjectId.device
    ⟨0, .ofList [(0, .string endpoint)]⟩)

/-- The store that the arguments describe: a bootstrap server and a device management server,
each if its URI is given. -/
def provision (a : Arguments) : Except Misuse Store := do
  let (shortId, lifetime) ← numbers a
  let store := match a.value? .bootstrapUri with
    | some uri => (blankStore a.endpoint).putSecurity 0 (.plainBootstrap uri)
    | none => blankStore a.endpoint
  match a.value? .managementUri with
  | none => return store
  | some uri =>
    let security ← managementSecurity a uri shortId
    return (store.putSecurity 1 security).putServer 0 ⟨shortId, lifetime, a.binding⟩

/-! ### Outlines of servers -/

def uriOutline (uri : ServerUri) : Outline :=
  .record "ServerUri" [
    ("scheme", .atom (match uri.scheme with | .coap => "Coap" | .coaps => "Coaps")),
    ("host", .atom (Quoted.encode uri.host)),
    ("port", .atom (toString uri.port.toNat))]

def serverOutline (server : ServerInfo) : Outline :=
  .record "ServerInfo" [
    ("uri", uriOutline server.uri),
    ("address", .option (fun a => .atom a.text) server.address),
    ("short_server_id", .option (fun id => .atom (toString id.toNat)) server.shortId)]

def managementOutline (server : ManagementServer) : Outline :=
  .record "DmServerInfo" [
    ("info", serverOutline server.info),
    ("lifetime", .option (fun l => .atom (toString l.toNat)) server.lifetime),
    ("binding", .option (fun b => .atom b.text) server.binding)]

def serversOutline (servers : Servers) : Outline :=
  .record "ServersInfo" [
    ("bootstraps", .list (servers.bootstrap.map serverOutline)),
    ("device_managements", .list (servers.management.map managementOutline))]

/-! ### Lines -/

/-- A text that is printed, to the output or to the errors, with a line feed behind it. -/
structure Printed where
  toErrors : Bool := false
  text : String

def plain (text : String) : Printed := { text := text }

/-- A line of the log. Debugging lines tell their thread and where they come from. -/
def logged (level : Log.Level) (origin text : String) : Printed :=
  { toErrors := level = .error
    text :=
      "[" ++ level.name ++ "] " ++
        (if level = .debug then "(1) " ++ origin ++ ": " ++ text else text) }

/-- Where debugging lines come from. -/
def inspectorOrigin : String := "lwm2m_lifecycle"
def serversOrigin : String := "lwm2m_lifecycle::servers"

/-- The level of the log for a verbosity. From three on the lines for tracing are asked for too:
the parsed arguments, in an order that is left open, and every reading of the store. They are left
out here, so three shows what two shows. -/
def levelOf (verbosity : Nat) : Log.Level :=
  match verbosity with
  | 0 => .warn
  | 1 => .info
  | _ => .debug

/-- The lines of the log that are shown at a level. -/
def loggedLines (level : Log.Level) (lines : List Log.Line) : List Printed :=
  (lines.filter fun l => l.level.shownAt level).map fun l =>
    logged l.level serversOrigin l.message

/-- Lines of the inspector itself that are shown only to those who debug. -/
def debugLines (level : Log.Level) (text : List String) : List Printed :=
  if level = .debug then
    match text with
    | first :: more => logged .debug inspectorOrigin first :: more.map plain
    | [] => []
  else []

def addressText (server : ServerInfo) : String :=
  match server.address with
  | some address => address.text
  | none => "unresolved"

def bootstrapLine (server : ServerInfo) : Printed :=
  plain ("[LC] 🥾 bootstrap server " ++ server.uri.text ++ " (" ++ addressText server ++ ")")

def managementLine (server : ManagementServer) : Printed :=
  let lifetime := (server.lifetime.map fun l => toString l.toNat ++ "s").getD "?"
  let binding := (server.binding.map BindingMode.text).getD "?"
  plain ("[LC] 🛰  device management server " ++ server.info.uri.text ++ " (" ++
    addressText server.info ++ ") lifetime=" ++ lifetime ++ " binding=" ++ binding)

/-- Bytes as text, if they are text. -/
def bytesText (bytes : Bytes) : String := (String.fromUTF8? ⟨bytes.toArray⟩).getD "\ufffd"

/-- The identity presented to a peer, and for those who debug its key. -/
def identityLines (level : Log.Level) (hosts : Hosts) (securities : Object)
    (peer : SocketAddress) : List Printed :=
  loggedLines level (Credentials.identityLines hosts securities peer) ++
    match Credentials.identity? hosts securities peer with
    | none => []
    | some identity =>
      let key := if level = .debug then Credentials.key? securities identity else none
      plain ("[LC] 🔑 psk identity `" ++ bytesText identity ++ "`") ::
        match key with
        | some bytes => (HexView.rows bytes).map plain
        | none => []

def serverLines (level : Log.Level) (hosts : Hosts) (securities : Object)
    (server : ManagementServer) : List Printed :=
  managementLine server ::
    match server.info.address with
    | some address => identityLines level hosts securities address
    | none => []

def decisionLine (endpoint : String) : Decision → Printed
  | .register server =>
    plain ("[LC] 👍 would register `" ++ endpoint ++ "` with " ++ server.uri.text)
  | .bootstrap server =>
    plain ("[LC] 👍 would bootstrap `" ++ endpoint ++ "` with " ++ server.uri.text)
  | .nothing => plain "[LC] ❌ no usable server, the client would stay unregistered"
  | .unsupported e => plain ("[LC] 💥 " ++ e.message)

/-- The links of all objects of a store. -/
def linksOf (store : Store) : List Links.Link :=
  (Links.described store.objectIds).flatMap fun object =>
    Links.ofObject object (store.read object)

/-- What is printed and how the inspector exits. -/
structure Outcome where
  exitCode : Nat
  printed : List Printed

namespace Outcome

/-- The lines of the output, without the times of day in lines of the log. A text that holds line
feeds spreads over several lines. -/
def outputLines (o : Outcome) : List String :=
  (o.printed.filter fun p => !p.toErrors).flatMap fun p =>
    (Text.lines p.text).map Text.withoutTime

/-- The lines of the log among the errors, without times of day. Of a text that
spreads over several lines it is the first, and any other that looks like one because
it tells a time and a level. -/
def errorLogLines (o : Outcome) : List String :=
  (o.printed.filter Printed.toErrors).flatMap fun p =>
    match Text.lines p.text with
    | first :: more => first :: more.filterMap Text.afterTime?
    | [] => []

end Outcome

/-- The report on a store whose Security and Server objects are given. -/
def reportOn (level : Log.Level) (hosts : Hosts) (endpoint : String) (store : Store)
    (securities servers : Object) : Outcome :=
  let found := Extraction.servers hosts securities servers
  let decision := Decision.ofServers found
  { exitCode := decision.exitCode
    printed :=
      loggedLines level (Extraction.lines hosts securities servers) ++
      debugLines level (serversOutline found).lines ++
      found.bootstrap.map bootstrapLine ++
      found.management.flatMap (serverLines level hosts securities) ++
      [plain ("[LC] 🔗 object links " ++ Links.text (linksOf store)),
        decisionLine endpoint decision] ++
      debugLines level [toString store.objectIds.length ++ " objects hosted"] ++
      debugLines level ["exit code: " ++ toString decision.exitCode] }

def report (hosts : Hosts) (a : Arguments) : Outcome :=
  match provision a with
  | .error misuse => { exitCode := 255, printed := misuse.lines.map plain }
  | .ok store =>
    match store.read ObjectId.security, store.read ObjectId.server with
    | some securities, some servers =>
      reportOn (levelOf a.verbosity) hosts a.endpoint store securities servers
    | _, _ => { exitCode := 1, printed := [plain "[LC] 💥 client is not configured"] }

def banner : String := "[LC] lwm2m-lifecycle v0.1.0"

/-- Runs the inspector on a command line. -/
def inspect (hosts : Hosts) (args : List String) : Outcome :=
  let outcome := match CommandLine.ofArguments args with
    | .report arguments => report hosts arguments
    | .information => { exitCode := 0, printed := [] }
    | .refused => { exitCode := 1, printed := [] }
  { outcome with printed := plain banner :: outcome.printed }

end Lwm2mClient.Inspector
