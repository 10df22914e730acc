/-!
Values set out over several lines: every field or item of a value stands on lines of its own,
indented and ended by a comma.
-/
namespace Lwm2mClient.Text

inductive Outline where
  | atom (text : String)
  /-- A name with values in round brackets. -/
  | tuple (name : String) (items : List Outline)
  | list (items : List Outline)
  | record (name : String) (fields : List (String × Outline))

namespace Outline

/-- Indented lines, the first behind a label and the last with a comma. -/
def item (label : String) : List String → List String
  | [] => []
  | [line] => ["    " ++ label ++ line ++ ","]
  | line :: more =>
    ("    " ++ label ++ line) :: (more.dropLast.map ("    " ++ ·) ++
      (more.getLast?.map fun last => "    " ++ last ++ ",").toList)

mutual

def lines : Outline → List String
  | atom text => [text]
  | tuple name [] => [name]
  | tuple name items => [name ++ "("] ++ itemLines items ++ [")"]
  | list [] => ["[]"]
  | list items => ["["] ++ itemLines items ++ ["]"]
  | record name fields => [name ++ " \x7b"] ++ fieldLines fields ++ ["\x7d"]

def itemLines : List Outline → List String
  | [] => []
  | o :: rest => item "" (lines o) ++ itemLines rest

def fieldLines : List (String × Outline) → List String
  | [] => []
  | (name, o) :: rest => item (name ++ ": ") (lines o) ++ fieldLines rest

end

/-- A value that may be absent. -/
def option {α : Type} (f : α → Outline) : Option α → Outline
  | some value => tuple "Some" [f value]
  | none => atom "None"

end Outline
end Lwm2mClient.Text
