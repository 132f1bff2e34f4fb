import LRZero.Analysis
import LRZero.Layout.Dictionary
import LRZero.Layout.Table

/-!
# What is printed of an analysis

The grammar, its sets, its states and its table, as texts for the page.
-/

namespace LRZero

/-- A member of a symbol set as it is printed. -/
def SymbolSet.member : Option Symbol → Layout.Member
  | none => .word "None"
  | some x => .quoted x

/-- A symbol set as it is printed, the mark of an empty body first. -/
def SymbolSet.group (s : SymbolSet) : Layout.Group :=
  if s = ∅ then ⟨"set(", [], ")"⟩
  else ⟨"\x7b", s.toList.map SymbolSet.member, "\x7d"⟩

/-- The sets of a table, keys in order. -/
def SetTable.text (t : SetTable) : String :=
  Layout.dictionary ((SortedSet.ofList t.keys).toList.map fun k =>
    (Text.quoted k, SymbolSet.group (t.get k)))

/-- The numbers of some states, each with the texts of its items in order. -/
def statesText (states : List State) : String :=
  Layout.dictionary (states.map fun s =>
    (toString s.number, ⟨"[", s.sortedTexts.map .quoted, "]"⟩))

/-- The name of the column with the numbers of the states. -/
def Trace.name : String := "From"

/-- A cell as it is printed. -/
def Trace.cellText : Option Nat → String
  | none => Symbol.emptyCell
  | some n => toString n

/-- A column as it is printed.  The heading has a space before it only where
all cells are numbers. -/
def Trace.column (x : Symbol) (cells : List (Option Nat)) : Layout.Column :=
  ⟨x, cells.all (·.isSome), cells.map Trace.cellText⟩

/-- The table as it is printed, with the states for rows and the symbols for columns. -/
def Trace.table (t : Trace) : Layout.Table :=
  ⟨Trace.name, t.rows.mapIdx fun i _ => toString i,
    t.columns.mapIdx fun k x => Trace.column x (t.rows.map fun row => (row[k]?).join)⟩

/-- The table on the page. -/
def Trace.text (t : Trace) : String := t.table.text

/-- The whole analysis of a grammar on the page. -/
def Analysis.text (a : Analysis) (g : Grammar) : String :=
  g.text ++ "\n\n" ++ "FIRST\n" ++ a.first.text ++ "\n\n" ++ "FOLLOW\n" ++ a.follow.text ++ "\n\n" ++
    statesText a.states ++ "\n\n" ++ a.trace.text

end LRZero
