import Lwm2mClient.Net.IpAddress

/-!
Addresses of peers: an internet address, a port and, for version 6, the scope in which the address
is meant. The text is `1.2.3.4:5` or `[::1%3]:5`, the scope being left out when it is zero.
-/
namespace Lwm2mClient.Net

structure SocketAddress where
  ip : IpAddress
  port : UInt16
  /-- Zero for version 4 and wherever no scope is given. -/
  scope : UInt32 := 0
  deriving DecidableEq

namespace SocketAddress

open IpAddress

/-- Reads a colon and a port up to the end. -/
def readPort (cs : List Char) : Option UInt16 := do
  let port ← whole (readNumber 10 none true 65535 (← skip ':' cs))
  return UInt16.ofNat port

/-- Reads an optional scope. -/
def readScope (cs : List Char) : Option (UInt32 × List Char) :=
  match cs with
  | '%' :: cs => (readNumber 10 none true 4294967295 cs).map fun (n, rest) =>
    (UInt32.ofNat n, rest)
  | _ => some (0, cs)

def ofText? (s : String) : Option SocketAddress :=
  match s.toList with
  | '[' :: cs => do
    let (groups, cs) ← readV6 cs
    let (scope, cs) ← readScope cs
    let port ← readPort (← skip ']' cs)
    return ⟨.v6 groups, port, scope⟩
  | cs => do
    let (octets, cs) ← readV4 cs
    let port ← readPort cs
    return ⟨.v4 octets, port, 0⟩

def text (a : SocketAddress) : String :=
  let port := toString a.port.toNat
  match a.ip with
  | .v4 _ => a.ip.text ++ ":" ++ port
  | .v6 _ =>
    if a.scope = 0 then "[" ++ a.ip.text ++ "]:" ++ port
    else "[" ++ a.ip.text ++ "%" ++ toString a.scope.toNat ++ "]:" ++ port

end SocketAddress
end Lwm2mClient.Net
