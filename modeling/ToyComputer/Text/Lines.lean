/-!
The lines of a text.
-/

namespace ToyComputer.Text

def dropCarriageReturn : List Char → List Char
  | '\r' :: line => line
  | line => line

/-- The lines of a text whose first line begins with the characters in `line`, which are kept in
reverse. -/
def linesFrom (line : List Char) : List Char → List (List Char)
  | [] => if line.isEmpty then [] else [line.reverse]
  | c :: rest =>
    if c = '\n' then (dropCarriageReturn line).reverse :: linesFrom [] rest
    else linesFrom (c :: line) rest

/-- Each line feed ends a line; what stands behind the last one is a line only if it is not
empty. -/
def lines (text : String) : List String := (linesFrom [] text.toList).map String.ofList

end ToyComputer.Text
