import LRZero.Text.Quoted
import LRZero.Text.Words

/-!
# Long texts between quotes

A text between quotes that is too long for the rest of its line is cut into
pieces, each between quotes of its own and below the one before it.  Every
line of the text begins a piece, and a line that is still too long is filled
into pieces part by part, where a part is a word with the white space behind
it.  A part is never cut, however long it is.
-/

namespace LRZero.Layout

/-- The number of columns of a page. -/
def pageWidth : Nat := 80

/-- A number of spaces. -/
def spaces (n : Nat) : String := String.ofList (List.replicate n ' ')

/-! ## Where a text can be cut -/

/-- A text cut between any two characters of a kind. -/
def cutBetween (cut : Char → Char → Bool) : List Char → List (List Char)
  | [] => []
  | c :: rest =>
    match rest, cutBetween cut rest with
    | d :: _, piece :: pieces =>
      if cut c d then [c] :: piece :: pieces else (c :: piece) :: pieces
    | _, pieces => [c] :: pieces

/-- Nothing is lost where a text is cut. -/
theorem flatten_cutBetween (cut : Char → Char → Bool) (cs : List Char) :
    (cutBetween cut cs).flatten = cs := by
  induction cs with
  | nil => rfl
  | cons c rest ih =>
    unfold cutBetween
    split
    · next h => split <;> simp_all
    · simp [ih]

/-- The lines of a text, each with its end. -/
def endedLines (cs : List Char) : List (List Char) :=
  cutBetween (fun c d => Text.isLineEnd c && !(c = '\r' && d = '\n')) cs

/-- The words of a line, each with the white space behind it; white space at
the start of the line is a part by itself. -/
def parts (line : List Char) : List (List Char) :=
  cutBetween (fun c d => Text.isBlank c && !Text.isBlank d) line

/-! ## Pieces -/

/-- The number of columns that a text takes between quotes. -/
def quotedWidth (cs : List Char) : Nat := (Text.quoted (String.ofList cs)).length

/-- The parts filled into pieces of a width, behind the piece begun; less
room may be left for the last part. -/
def fill (width lastWidth : Nat) (piece : List Char) : List (List Char) → List (List Char)
  | [] => if piece = [] then [] else [piece]
  | part :: rest =>
    if quotedWidth (piece ++ part) ≤ (if rest = [] then lastWidth else width) then
      fill width lastWidth (piece ++ part) rest
    else if piece = [] then fill width lastWidth part rest
    else piece :: fill width lastWidth part rest

/-- The pieces of a line. -/
def linePieces (width lastWidth : Nat) (line : List Char) : List (List Char) :=
  if quotedWidth line ≤ lastWidth then [line] else fill width lastWidth [] (parts line)

/-- The pieces of the lines of a text, where some columns are kept free
behind the last one. -/
def piecesOfLines (width room : Nat) : List (List Char) → List (List Char)
  | [] => []
  | [line] => linePieces width (width - room) line
  | line :: rest => linePieces width width line ++ piecesOfLines width room rest

/-- The pieces of a text. -/
def pieces (width room : Nat) (cs : List Char) : List (List Char) :=
  piecesOfLines width room (endedLines cs)

/-- A text between quotes from a column on, with some columns kept free
behind it. -/
def quotation (column room : Nat) (s : String) : String :=
  if s = "" ∨ column + (Text.quoted s).length + room ≤ pageWidth then Text.quoted s
  else ("\n" ++ spaces column).intercalate
    ((pieces (pageWidth - column) room s.toList).map fun piece => Text.quoted (String.ofList piece))

/-! ## Nothing is lost -/

theorem flatten_fill (width lastWidth : Nat) (piece : List Char) (ps : List (List Char)) :
    (fill width lastWidth piece ps).flatten = piece ++ ps.flatten := by
  fun_induction fill width lastWidth piece ps with
  | case1 => rfl
  | case2 => simp
  | case3 piece part rest _ ih => simp [ih]
  | case4 part rest _ ih => simp [ih]
  | case5 piece part rest _ _ ih => simp [ih]

theorem flatten_linePieces (width lastWidth : Nat) (line : List Char) :
    (linePieces width lastWidth line).flatten = line := by
  rw [linePieces]
  split
  · simp
  · simp [flatten_fill, parts, flatten_cutBetween]

theorem flatten_piecesOfLines (width room : Nat) (lines : List (List Char)) :
    (piecesOfLines width room lines).flatten = lines.flatten := by
  fun_induction piecesOfLines width room lines with
  | case1 => rfl
  | case2 => simp [flatten_linePieces]
  | case3 _ _ _ ih => simp [flatten_linePieces, ih]

/-- The pieces of a text, put together, are the text. -/
theorem flatten_pieces (width room : Nat) (cs : List Char) :
    (pieces width room cs).flatten = cs := by
  rw [pieces, flatten_piecesOfLines, endedLines, flatten_cutBetween]

end LRZero.Layout
