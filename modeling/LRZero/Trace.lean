import LRZero.Symbol

/-!
# Transition tables

The table of an automaton has a row for each state and a column for each
symbol; a cell holds the number of the state that the symbol leads to, or is
empty.
-/

namespace LRZero

/-- The table of an automaton. -/
structure Trace where
  /-- The symbols, in order. -/
  columns : List Symbol
  /-- For each state, the cells in the order of the columns. -/
  rows : List (List (Option Nat))
deriving DecidableEq

/-- A step from one state to another. -/
structure Transition where
  source : Nat
  symbol : Symbol
  target : Nat
deriving DecidableEq

namespace Trace

/-- The table whose rows are given by the moves from each state. -/
def ofMoves (columns : List Symbol) (moves : List (List (Symbol × Nat))) : Trace :=
  ⟨columns, moves.map fun m => columns.map fun x => m.lookup x⟩

/-- The cell of a state and a symbol; rows and columns that are missing have
empty cells. -/
def cell? (t : Trace) (i : Nat) (x : Symbol) : Option Nat :=
  ((t.rows[i]?).bind fun row => (t.columns.zip row).lookup x).join

/-- The transitions from state `i`, read off its row. -/
def rowTransitions (t : Trace) (i : Nat) (row : List (Option Nat)) : List Transition :=
  (t.columns.zip row).filterMap fun (x, cell) => cell.map fun j => ⟨i, x, j⟩

/-- All transitions, row by row in the order of the columns. -/
def transitions (t : Trace) : List Transition :=
  (t.rows.mapIdx t.rowTransitions).flatten

end Trace

end LRZero
