import Lwm2mClient.Inspector.Report

/-!
The command line of the inspector. Only hosts that are address literals are found.
-/
namespace Lwm2mClient

def print (p : Inspector.Printed) : IO Unit :=
  if p.toErrors then IO.eprintln p.text else IO.println p.text

end Lwm2mClient

def main (args : List String) : IO UInt32 := do
  let outcome := Lwm2mClient.Inspector.inspect {} args
  outcome.printed.forM Lwm2mClient.print
  return UInt32.ofNat outcome.exitCode
