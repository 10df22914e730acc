import Lwm2mClient.Net.SocketAddress

/-!
Finding the address of a host. A host that is an address literal stands for itself;
any other name is looked up in a table, where the first address listed wins. A text
that holds a NUL names no host.
-/
namespace Lwm2mClient.Net

/-- The names that can be looked up, exactly as written, with their addresses. -/
structure Hosts where
  entries : List (String × List IpAddress) := []
  deriving DecidableEq

namespace Hosts

/-- The first address of a name in the table. -/
def lookup? (hosts : Hosts) (name : String) : Option IpAddress :=
  if '\x00' ∈ name.toList then none else (hosts.entries.lookup name).bind List.head?

/-- The address of a host, if it has one. -/
def find? (hosts : Hosts) (host : String) : Option IpAddress :=
  match IpAddress.ofLiteral? host with
  | some ip => some ip
  | none => hosts.lookup? host

end Hosts
end Lwm2mClient.Net
