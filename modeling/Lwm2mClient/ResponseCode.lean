/-!
The response codes that servers and this client answer with.
-/
namespace Lwm2mClient

inductive ResponseCode where
  | created
  | deleted
  | changed
  | content
  | badRequest
  | unauthorized
  | forbidden
  | notFound
  | methodNotAllowed
  | internalServerError
  deriving DecidableEq

namespace ResponseCode

def all : List ResponseCode :=
  [created, deleted, changed, content, badRequest, unauthorized, forbidden, notFound,
    methodNotAllowed, internalServerError]

def name : ResponseCode → String
  | created => "Created"
  | deleted => "Deleted"
  | changed => "Changed"
  | content => "Content"
  | badRequest => "BadRequest"
  | unauthorized => "Unauthorized"
  | forbidden => "Forbidden"
  | notFound => "NotFound"
  | methodNotAllowed => "MethodNotAllowed"
  | internalServerError => "InternalServerError"

def ofName? (name : String) : Option ResponseCode :=
  all.find? fun code => code.name == name

/-- The class and detail of a code, as in `4.05`. -/
def dotted : ResponseCode → String
  | created => "2.01"
  | deleted => "2.02"
  | changed => "2.04"
  | content => "2.05"
  | badRequest => "4.00"
  | unauthorized => "4.01"
  | forbidden => "4.03"
  | notFound => "4.04"
  | methodNotAllowed => "4.05"
  | internalServerError => "5.00"

/-- A code of class 2. -/
def isSuccess : ResponseCode → Bool
  | created | deleted | changed | content => true
  | _ => false

def text (code : ResponseCode) : String := code.name ++ " (" ++ code.dotted ++ ")"

end ResponseCode
end Lwm2mClient
