/-!
# Runs of characters

A text falls into maximal runs of characters of a class, with gaps between them. `runs` lists the
runs from left to right; words and blank-separated fields are its two uses. `split` cuts a text at
every separator instead, so that parts may be empty.
-/

namespace Landform.Text

/-- The runs of the class `member` in a text that follows the reversed run `run`. -/
def runsFrom (member : Char → Bool) : List Char → List Char → List String
  | [], [] => []
  | run, [] => [String.ofList run.reverse]
  | run, c :: rest =>
    if member c then runsFrom member (c :: run) rest
    else if run.isEmpty then runsFrom member [] rest
    else String.ofList run.reverse :: runsFrom member [] rest

/-- The maximal runs of the class `member` in a text, from left to right. -/
def runs (member : Char → Bool) (text : List Char) : List String :=
  runsFrom member [] text

/-- The parts of a text between the separators, of which there is always at least one. -/
def partsAt (separator : Char) : List Char → List (List Char)
  | [] => [[]]
  | c :: rest =>
    if c == separator then [] :: partsAt separator rest
    else match partsAt separator rest with
      | first :: others => (c :: first) :: others
      | [] => [[c]]

/-- The parts of a text between the separators. -/
def split (separator : Char) (text : String) : List String :=
  (partsAt separator text.toList).map String.ofList

end Landform.Text
