import LRZero.Item
import LRZero.SortedSet

/-!
# States

A state is a numbered list of items.  The order of the items matters for
display and for the order in which transitions are explored; as a set of
items a state is told from others by its key.  Items are compared by their
texts throughout.
-/

namespace LRZero

/-- A node of the automaton. -/
structure State where
  number : Int
  items : List Item
deriving DecidableEq, Inhabited

namespace State

/-- The texts of the items, in order. -/
def texts (s : State) : List String := s.items.map (·.text)

/-- The set of the texts of the items. -/
def key (s : State) : SortedSet String := .ofList s.texts

/-- Is the item in the state? -/
def holds (s : State) (i : Item) : Bool := s.items.any (·.same i)

/-- Is the item new to the state?  This is what an addition answers. -/
def isNew (s : State) (i : Item) : Bool := !s.holds i

/-- The state with one more item, if it is new. -/
def add (s : State) (i : Item) : State :=
  if s.isNew i then { s with items := s.items ++ [i] } else s

/-- Have the states equally many items, all of the first in the second?  With
repeated items this depends on which is the first. -/
def same (s t : State) : Bool := s.items.length = t.items.length && s.items.all t.holds

/-- The first fault of an item that has no next symbol to show. -/
def fault? (s : State) : Option Fault := s.items.findSome? (·.fault?)

/-- The symbols right behind the dots, each once, in the order of the items. -/
def nextSymbols (s : State) : List Symbol := (s.items.filterMap (·.next?)).eraseDups

/-- The next symbols, or the fault of an item that has none to show. -/
def symbols (s : State) : Except Fault (List Symbol) :=
  match s.fault? with
  | some f => .error f
  | none => .ok s.nextSymbols

/-- The texts of the items in order of code points, repetitions kept. -/
def sortedTexts (s : State) : List String := s.texts.mergeSort fun a b => decide (a ≤ b)

/-- The number and the items, one to a line. -/
def text (s : State) : String :=
  "\n".intercalate (s!"State {s.number}" :: s.texts.map ("  " ++ ·))

/-- The number of the state and that of its items. -/
def inspect (s : State) : String := s!"State({s.number}, {s.items.length} items)"

/-- A state can still grow, so it is refused as a key of a table. -/
def asKey (_ : State) : Except Fault (SortedSet String) := .error .stateAsKey

end State

end LRZero
