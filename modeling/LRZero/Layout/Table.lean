import LRZero.Layout.Quotation

/-!
# Tables on the page

A table has a first column of row labels, set to the left, and columns of
cells, each set to the right below its heading.  The name of the first
column stands on a line of its own between the headings and the rows.

A long table shows its first and its last rows only, and a table that is not
narrower than the page shows its first and its last columns only.  Dots stand
for what is left out, and a line below the table tells how large it is.
-/

namespace LRZero.Layout

/-- A text filled up on the right. -/
def padRight (width : Nat) (s : String) : String := s ++ spaces (width - s.length)

/-- A text filled up on the left. -/
def padLeft (width : Nat) (s : String) : String := spaces (width - s.length) ++ s

/-- The length of the longest of some texts. -/
def longest (texts : List String) : Nat := (texts.map (·.length)).foldl max 0

/-- A heading with the cells below it. -/
structure Column where
  heading : String
  /-- Does a space stand before the heading, as it does before every cell? -/
  spaced : Bool
  cells : List String

/-- A table: the name of the column of labels, the label of each row, and the
columns of cells. -/
structure Table where
  name : String
  labels : List String
  columns : List Column

/-! ## Rows -/

/-- The number of rows up to which all of them are shown. -/
def rowLimit : Nat := 60

/-- The number of rows that are shown at either end of a longer table. -/
def endRows : Nat := 5

/-- The rows that are shown, with something in the place of those left out. -/
def shownRows (gap : String) (rows : List String) : List String :=
  if rows.length ≤ rowLimit then rows
  else rows.take endRows ++ gap :: rows.drop (rows.length - endRows)

/-- The dots that stand for cells left out of a column of some width. -/
def dots (width : Nat) : String := if 3 < width then "..." else ".."

/-! ## Columns as blocks

A block holds the texts of one column, a line each: the heading, the line
with the name of the table, and the rows. -/

/-- The labels as a block. -/
def Table.labelBlock (t : Table) : List String :=
  "" :: t.name :: shownRows (dots (longest (t.name :: shownRows "" t.labels))) t.labels

/-- The heading with the space before it, if there is one. -/
def Column.title (c : Column) : String := if c.spaced then " " ++ c.heading else c.heading

/-- Cells are not set further to the right than this, even below a longer heading. -/
def cellLimit : Nat := 50

/-- The heading and the cells as a block. -/
def Column.block (c : Column) : List String :=
  let cells := c.cells.map (" " ++ ·)
  let width := longest (c.title :: shownRows "" cells)
  let cellWidth := min width cellLimit
  padLeft width c.title :: spaces width ::
    (shownRows (dots cellWidth) cells).map (padLeft cellWidth)

/-- The text that stands for columns left out, in every line. -/
def gap : String := " ..."

/-- The block that stands for columns left out. -/
def Table.gapBlock (t : Table) : List String := t.labelBlock.map fun _ => gap

/-- The columns with spaces before the headings at the places where the given
columns have them. -/
def spacedLike (given columns : List Column) : List Column :=
  columns.zipWith (fun c g => { c with spaced := g.spaced }) given

/-- The blocks of a table that shows only some columns at either end.  It
keeps the places of the spaces before its headings. -/
def Table.cutBlocks (t : Table) (ends : Nat) : List (List String) :=
  let left := t.columns.take ends
  let right := t.columns.drop (t.columns.length - ends)
  let blocks := (spacedLike t.columns (left ++ right)).map Column.block
  t.labelBlock :: blocks.take ends ++ t.gapBlock :: blocks.drop ends

/-- The blocks of a table that shows a number of columns, half of them at
either end, or all of them if there are no more. -/
def Table.blocks (t : Table) (number : Nat) : List (List String) :=
  if t.columns.length ≤ number then t.labelBlock :: t.columns.map Column.block
  else t.cutBlocks (number / 2)

/-! ## The columns that fit -/

/-- The place in the middle of `n` things: the half of `n`, rounded to the
even number where `n` is odd. -/
def middle (n : Nat) : Nat := (n + (n / 2) % 2) / 2

theorem middle_lt {n : Nat} (h : 1 < n) : middle n < n := by
  unfold middle
  omega

/-- The width of some blocks side by side, one space between any two. -/
def totalWidth (widths : List Nat) : Nat := widths.foldl (· + ·) 0 + (widths.length - 1)

/-- The number of blocks that remain when the middle one is left out until
the others are narrower than a given width. -/
def fitting (width : Nat) (widths : List Nat) : Nat :=
  if width ≤ totalWidth widths ∧ 1 < widths.length then
    fitting width (widths.eraseIdx (middle widths.length))
  else widths.length
termination_by widths.length
decreasing_by
  next h =>
    rw [List.length_eraseIdx_of_lt (middle_lt h.2)]
    omega

/-- The number of blocks that fit on the page: all of them, or those that
leave room for a gap. -/
def fittingOnPage (widths : List Nat) : Nat :=
  if totalWidth widths < pageWidth then widths.length
  else fitting (pageWidth - (gap.length + 1)) widths

/-- The number of columns that there is room for, but at least two.  Of more
columns than the page has places, the outer ones alone are considered. -/
def Table.fittingColumns (t : Table) : Nat :=
  max 2 (fittingOnPage ((t.blocks pageWidth).map longest) - 1)

/-! ## The table -/

/-- Two blocks side by side. -/
def beside (left right : List String) : List String :=
  left.zipWith (fun l r => l ++ " " ++ r) right

/-- Blocks side by side, each filled up on the right. -/
def sideBySide : List (List String) → List String
  | [] => []
  | block :: rest => (rest.map filled).foldl beside (filled block)
where
  filled (block : List String) : List String := block.map (padRight (longest block))

/-- Is all of the table shown? -/
def Table.isWhole (t : Table) : Bool :=
  t.labels.length ≤ rowLimit && t.columns.length ≤ t.fittingColumns

/-- The line that tells how large the table is. -/
def Table.sizeText (t : Table) : String :=
  "[" ++ toString t.labels.length ++ " rows x " ++ toString t.columns.length ++ " columns]"

/-- The table on the page, every line with its end. -/
def Table.text (t : Table) : String :=
  let lines := sideBySide (t.blocks t.fittingColumns) ++ if t.isWhole then [] else ["", t.sizeText]
  String.join (lines.map (· ++ "\n"))

end LRZero.Layout
