/-!
# Lines

A text is cut into lines at line ends.  A carriage return with a line feed
behind it is one line end.
-/

namespace LRZero.Text

/-- The characters that end a line. -/
def isLineEnd (c : Char) : Bool :=
  ('\n' ≤ c && c ≤ '\r') || ('\x1c' ≤ c && c ≤ '\x1e') || c = '\u0085' ||
  c = '\u2028' || c = '\u2029'

/-- The lines of a text that follows `line`, the characters of the line
begun, the last one first.  A carriage return and a line feed after it end
one line, and nothing follows the last line end. -/
def linesFrom (line : List Char) : List Char → List (List Char)
  | [] => if line = [] then [] else [line.reverse]
  | '\r' :: '\n' :: rest => line.reverse :: linesFrom [] rest
  | c :: rest =>
    if isLineEnd c then line.reverse :: linesFrom [] rest else linesFrom (c :: line) rest

/-- The lines of a text, without their ends. -/
def lines (s : String) : List String := (linesFrom [] s.toList).map String.ofList

/-- The characters of a text in which every carriage return, and every one
with a line feed after it, has become a line feed. -/
def plainEnds : List Char → List Char
  | [] => []
  | '\r' :: '\n' :: rest => '\n' :: plainEnds rest
  | c :: rest => (if c = '\r' then '\n' else c) :: plainEnds rest

/-- The text with a line feed for each line end of a file. -/
def normalizeLineEnds (s : String) : String := String.ofList (plainEnds s.toList)

end LRZero.Text
