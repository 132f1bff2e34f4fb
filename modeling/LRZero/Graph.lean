import LRZero.State
import LRZero.Trace

/-!
# The automaton as a graph

Nodes are states, and there is one edge from a state to another however many
symbols lead there: the edge carries them all, in the order of the columns.
-/

namespace LRZero

/-- A state with the texts of its items in order. -/
structure Node where
  number : Int
  texts : List String
deriving DecidableEq

/-- All symbols that lead from one state to another. -/
structure Edge where
  source : Nat
  target : Nat
  symbols : List Symbol
deriving DecidableEq

/-- The symbols in one line. -/
def Edge.label (e : Edge) : String := ", ".intercalate e.symbols

/-- Nodes and edges, in order. -/
structure Graph where
  nodes : List Node
  edges : List Edge
deriving DecidableEq

/-- The edges from state `i`, read off its row, by increasing target. -/
def Trace.rowEdges (t : Trace) (i : Nat) (row : List (Option Nat)) : List Edge :=
  (SortedSet.ofList (row.filterMap id)).toList.map fun j =>
    ⟨i, j, ((t.columns.zip row).filter fun (_, cell) => cell = some j).map (·.1)⟩

/-- The graph of some states and their table. -/
def Graph.ofTrace (states : List State) (t : Trace) : Graph where
  nodes := states.map fun s => ⟨s.number, s.sortedTexts⟩
  edges := (t.rows.mapIdx t.rowEdges).flatten

end LRZero
