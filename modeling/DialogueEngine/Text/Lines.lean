/-! # Lines

How bytes and characters are cut into lines. A line feed ends a line and belongs to no line;
neither does one carriage return in front of it. What stands behind the last line feed is a line
of its own, unless it is empty.
-/

namespace DialogueEngine.Text

variable {α : Type} [BEq α]

/-- The line that a line feed ends. It is given with its last character first. -/
def endLine (carriageReturn : α) : List α → List α
  | [] => []
  | c :: line => if c == carriageReturn then line.reverse else (c :: line).reverse

/-- Cuts a list into lines; `line` holds the present one, the last character first. -/
def cutLines (lineFeed carriageReturn : α) (line : List α) : List α → List (List α)
  | [] => if line.isEmpty then [] else [line.reverse]
  | c :: rest =>
    if c == lineFeed then
      endLine carriageReturn line :: cutLines lineFeed carriageReturn [] rest
    else cutLines lineFeed carriageReturn (c :: line) rest

def lines (s : String) : List String := (cutLines '\n' '\r' [] s.toList).map String.ofList

end DialogueEngine.Text
