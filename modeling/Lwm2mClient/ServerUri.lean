import Lwm2mClient.Text.Number

/-!
URIs of servers: `coap://` or `coaps://`, a host that stands in brackets or holds no colon, and an
optional port. Whatever follows the first slash behind the host is ignored.
-/
namespace Lwm2mClient

inductive Scheme where
  | coap
  | coaps
  deriving DecidableEq

namespace Scheme

def text : Scheme → String
  | coap => "coap"
  | coaps => "coaps"

def defaultPort : Scheme → UInt16
  | coap => 5683
  | coaps => 5684

end Scheme

structure ServerUri where
  scheme : Scheme
  /-- A name or an address literal, without brackets. -/
  host : String
  port : UInt16
  deriving DecidableEq

namespace ServerUri

/-- What is left of a text behind another one that it starts with. -/
def dropStart? : List Char → List Char → Option (List Char)
  | [], cs => some cs
  | p :: ps, c :: cs => if p = c then dropStart? ps cs else none
  | _ :: _, [] => none

/-- The scheme a text starts with and what follows it. -/
def scheme? (cs : List Char) : Option (Scheme × List Char) :=
  match dropStart? "coaps://".toList cs with
  | some rest => some (.coaps, rest)
  | none => (dropStart? "coap://".toList cs).map fun rest => (.coap, rest)

/-- The port behind a host: the default one if nothing is there, else a colon and a number. -/
def port? (scheme : Scheme) : List Char → Option UInt16
  | [] => some scheme.defaultPort
  | ':' :: cs => (Text.unsigned? 65535 cs).map UInt16.ofNat
  | _ => none

/-- Splits an authority into its host and what stands behind it. -/
def splitHost? : List Char → Option (List Char × List Char)
  | '[' :: cs =>
    match cs.dropWhile (· ≠ ']') with
    | _ :: rest => some (cs.takeWhile (· ≠ ']'), rest)
    | [] => none
  | cs => some (cs.takeWhile (· ≠ ':'), cs.dropWhile (· ≠ ':'))

def ofAuthority? (scheme : Scheme) (authority : List Char) : Option ServerUri := do
  if '@' ∈ authority then none
  let (host, rest) ← splitHost? authority
  if host.isEmpty then none
  let port ← port? scheme rest
  return ⟨scheme, String.ofList host, port⟩

def ofText? (s : String) : Option ServerUri := do
  let (scheme, rest) ← scheme? s.toList
  ofAuthority? scheme (rest.takeWhile (· ≠ '/'))

/-- The text of a URI, always with its port; a host that holds a colon stands in brackets. -/
def text (u : ServerUri) : String :=
  let host := if ':' ∈ u.host.toList then "[" ++ u.host ++ "]" else u.host
  u.scheme.text ++ "://" ++ host ++ ":" ++ toString u.port.toNat

end ServerUri
end Lwm2mClient
