/-!
Lines of a text. A line ends at a line feed or at a carriage return with a line feed behind it; a
carriage return that stands alone belongs to its line. A line of a log begins with the time of day
at which it was written, and its level in brackets follows.
-/
namespace Lwm2mClient.Text

/-- The lines of a row of characters, at least one. -/
def splitLines : List Char → List (List Char)
  | [] => [[]]
  | '\n' :: cs => [] :: splitLines cs
  | '\r' :: '\n' :: cs => [] :: splitLines cs
  | c :: cs =>
    match splitLines cs with
    | line :: more => (c :: line) :: more
    | [] => [[c]]

def lines (s : String) : List String := (splitLines s.toList).map String.ofList

/-- The characters of a time of day to the second, with the blank behind it. -/
def timeShape : List (Char → Bool) :=
  [Char.isDigit, Char.isDigit, (· == ':'), Char.isDigit, Char.isDigit, (· == ':'),
    Char.isDigit, Char.isDigit, (· == ' ')]

/-- What stands behind the time of day in a line of a log; other lines are none, also where they
begin with a time of day. -/
def afterTime? (line : String) : Option String :=
  let cs := line.toList
  let entry := cs.drop timeShape.length
  if (timeShape.zipWith (fun fits c => fits c) cs).all id ∧ entry.head? = some '[' then
    some (String.ofList entry)
  else none

/-- A line without the time of day, if it is a line of a log. -/
def withoutTime (line : String) : String := (afterTime? line).getD line

end Lwm2mClient.Text
