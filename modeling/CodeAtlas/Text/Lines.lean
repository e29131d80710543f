/-!
# Lines and bounded text

A text in lines, and its first characters.
-/

namespace CodeAtlas.Text

/-- A line without the carriage return at its end; the line is held last character first. -/
def closeLine : List Char → List Char
  | '\r' :: l => l.reverse
  | l => l.reverse

/-- Cuts after each line feed; `line` and `done` are held last first. -/
def linesFrom (line : List Char) (done : List (List Char)) : List Char → List (List Char)
  | [] => if line.isEmpty then done.reverse else (line.reverse :: done).reverse
  | c :: s => if c = '\n' then linesFrom [] (closeLine line :: done) s else linesFrom (c :: line) done s

/-- The lines of a text without their line ends (`\n` or `\r\n`). A line end at the very end of the
text opens no further line. -/
def lines (s : String) : List String := (linesFrom [] [] s.toList).map String.ofList

/-- The first `n` characters of a text. -/
def truncate (n : Nat) (s : String) : String := String.ofList (s.toList.take n)

end CodeAtlas.Text
