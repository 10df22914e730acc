/-!
Transport bindings that a device management server may declare.
-/
namespace Lwm2mClient

inductive BindingMode where
  | u
  | uq
  | s
  | sq
  | us
  | uqs
  deriving DecidableEq

namespace BindingMode

def all : List BindingMode := [u, uq, s, sq, us, uqs]

def text : BindingMode → String
  | u => "U"
  | uq => "UQ"
  | s => "S"
  | sq => "SQ"
  | us => "US"
  | uqs => "UQS"

def ofText? (text : String) : Option BindingMode :=
  all.find? fun mode => mode.text == text

/-- What is said of a text that is no binding mode. -/
def unknownMessage (text : String) : String := "unknown binding mode `" ++ text ++ "`"

end BindingMode
end Lwm2mClient
