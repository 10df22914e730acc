import Lwm2mClient.BindingMode

/-!
The arguments of the inspector. An option takes its value behind an equals sign, is given at most
once, and never has an empty value; equals signs and hyphens in front of what counts are skipped.
The verbosity flag may be repeated.
-/
namespace Lwm2mClient.Inspector

inductive OptionName where
  | endpoint
  | managementUri
  | shortId
  | lifetime
  | binding
  | bootstrapUri
  | identity
  | key
  deriving DecidableEq

namespace OptionName

def all : List OptionName :=
  [endpoint, managementUri, shortId, lifetime, binding, bootstrapUri, identity, key]

def long : OptionName → String
  | endpoint => "endpoint"
  | managementUri => "dm-uri"
  | shortId => "short-id"
  | lifetime => "lifetime"
  | binding => "binding"
  | bootstrapUri => "bs-uri"
  | identity => "psk-identity"
  | key => "psk-key"

def short? : OptionName → Option Char
  | endpoint => some 'e'
  | lifetime => some 'l'
  | binding => some 'b'
  | _ => none

def ofLong? (name : List Char) : Option OptionName :=
  all.find? fun o => o.long.toList == name

def ofShort? (c : Char) : Option OptionName := all.find? fun o => o.short? == some c

end OptionName

/-- What one argument says. -/
inductive Item where
  | value (option : OptionName) (text : String)
  | verbose (times : Nat)
  /-- Asks for help or the version instead of a report. -/
  | information
  | refused

/-- The value of an option, given behind an equals sign. -/
def valueItem (option : OptionName) (cs : List Char) : Item :=
  match cs.dropWhile (· == '=') with
  | [] => .refused
  | value => .value option (String.ofList value)

/-- An argument that begins with two hyphens. -/
def longItem (arg : List Char) : Item :=
  let body := arg.dropWhile (· == '-')
  let name := body.takeWhile (· ≠ '=')
  match OptionName.ofLong? name with
  | some option =>
    match body.dropWhile (· ≠ '=') with
    | [] => .refused
    | value => valueItem option value
  | none =>
    if name = "help".toList ∨ name = "version".toList then .information else .refused

/-- The characters behind one hyphen: flags, of which the last may be an option with its value. -/
def shortItem (times : Nat) : List Char → List Item
  | [] => [.verbose times]
  | 'v' :: cs => shortItem (times + 1) cs
  | 'h' :: _ => [.information]
  | 'V' :: _ => [.information]
  | c :: cs =>
    match OptionName.ofShort? c with
    | some option =>
      match cs with
      | '=' :: _ => [.verbose times, valueItem option cs]
      | _ => [.refused]
    | none => [.refused]

/-- What each argument says. Behind two hyphens alone nothing is an option any more. -/
def items : List String → List Item
  | [] => []
  | arg :: rest =>
    match arg.toList with
    | ['-', '-'] => rest.map fun _ => .refused
    | '-' :: '-' :: _ => longItem arg.toList :: items rest
    | '-' :: c :: cs => shortItem 0 (c :: cs) ++ items rest
    | _ => .refused :: items rest

structure Arguments where
  verbosity : Nat
  values : List (OptionName × String)

namespace Arguments

def value? (a : Arguments) (option : OptionName) : Option String := a.values.lookup option

def endpoint (a : Arguments) : String := (a.value? .endpoint).getD "lwm2m-client"
def shortId (a : Arguments) : String := (a.value? .shortId).getD "1"
def lifetime (a : Arguments) : String := (a.value? .lifetime).getD "300"
def binding (a : Arguments) : String := (a.value? .binding).getD "U"

end Arguments

/-- What a command line asks for. -/
inductive CommandLine where
  | report (arguments : Arguments)
  | information
  | refused

/-- The values of the options, in order. -/
def Item.value? : Item → Option (OptionName × String)
  | .value option text => some (option, text)
  | _ => none

def Item.verbosity : Item → Nat
  | .verbose times => times
  | _ => 0

/-- The first thing that ends the reading of arguments. -/
def firstEnd? : List Item → Option CommandLine
  | [] => none
  | .information :: _ => some .information
  | .refused :: _ => some .refused
  | _ :: rest => firstEnd? rest

/-- Whether some values may stand together: each option once, a known binding mode, and an
identity exactly if there is a key. -/
def consistent (values : List (OptionName × String)) : Bool :=
  let options := values.map (·.1)
  options.eraseDups.length == options.length &&
    ((values.lookup .binding).all fun mode => (BindingMode.ofText? mode).isSome) &&
    (values.lookup .identity).isSome == (values.lookup .key).isSome

/-- Reads a command line. -/
def CommandLine.ofArguments (args : List String) : CommandLine :=
  let found := items args
  match firstEnd? found with
  | some ending => ending
  | none =>
    let values := found.filterMap Item.value?
    if consistent values then
      .report ⟨found.foldl (fun times item => times + item.verbosity) 0, values⟩
    else .refused

end Lwm2mClient.Inspector
