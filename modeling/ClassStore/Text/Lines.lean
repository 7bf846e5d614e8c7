/-!
# Lines and indentation

A line ends at a line feed, and a return that stands right before the line
feed belongs to the line's end.  The last line needs no end.
-/

namespace ClassStore.Text

/-- Drops one return from the front of a reversed line. -/
def dropReturn : List Char → List Char
  | '\r' :: line => line
  | line => line

/-- The lines of the characters, given the reversed beginning of the first. -/
def linesFrom (current : List Char) : List Char → List (List Char)
  | [] => if current.isEmpty then [] else [current.reverse]
  | character :: rest =>
      if character = '\n' then
        (dropReturn current).reverse :: linesFrom [] rest
      else
        linesFrom (character :: current) rest

/-- The lines of a text, without their ends. -/
def lines (text : String) : List String :=
  (linesFrom [] text.toList).map String.ofList

/-- Moves a line to the right, leaving an empty one empty. -/
def indentLine (width : Nat) (line : String) : String :=
  if line.isEmpty then "" else String.ofList (List.replicate width ' ') ++ line

/-- Moves every line to the right and joins the lines by line feeds. -/
def indent (width : Nat) (text : String) : String :=
  String.intercalate "\n" ((lines text).map (indentLine width))

end ClassStore.Text
