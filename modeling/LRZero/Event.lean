import LRZero.Inclusion
import LRZero.Text.Quoted

/-!
# The log

What happens while a grammar is read and analysed is recorded as a list of
events, in order.  Every event is a detail except a line that the reader
cannot use, which is a warning.
-/

namespace LRZero

/-- One of the two families of sets. -/
inductive SetFamily
  | first
  | follow
deriving DecidableEq

/-- The name under which a family is logged and shown. -/
def SetFamily.name : SetFamily → String
  | .first => "FIRST"
  | .follow => "FOLLOW"

/-- How much attention an event asks for. -/
inductive Level
  | detail
  | warning
deriving DecidableEq

/-- The name of a level in a log line. -/
def Level.name : Level → String
  | .detail => "DEBUG"
  | .warning => "WARNING"

/-- Something that is logged. -/
inductive Event
  /-- The reader has met the first rule. -/
  | startSymbol (symbol : Symbol)
  /-- The reader skips a line. -/
  | unexpectedLine (number : Nat) (line : String)
  /-- The terminals that the reader has found. -/
  | terminals (symbols : List Symbol)
  /-- The non-terminals that the reader has found. -/
  | nonterminals (symbols : List Symbol)
  /-- A pass over the rules is done. -/
  | pass (family : SetFamily) (number : Nat) (changed : Bool)
  /-- A closure takes in the rules of a non-terminal. -/
  | expanding (symbol : Symbol)
  /-- The collection has a new state. -/
  | newState (number : Int)
deriving DecidableEq

namespace Event

def level : Event → Level
  | unexpectedLine .. => .warning
  | _ => .detail

/-- The event in words. -/
def message : Event → String
  | startSymbol x => "start symbol: " ++ x
  | unexpectedLine n line => s!"Unexpected input at line {n}: " ++ line
  | terminals xs => "terminals: " ++ Text.quotedList xs
  | nonterminals xs => "non-terminals: " ++ Text.quotedList xs
  | pass family n changed =>
    s!"{family.name} pass {n}: " ++ if changed then "changed" else "stable"
  | expanding x => "expanding non-terminal " ++ x
  | newState n => s!"new state {n} created"

/-- The events of a run of passes: all of them but the last have changed something. -/
def ofPasses (family : SetFamily) (tables : List SetTable) : List Event :=
  tables.mapIdx fun i _ => pass family (i + 1) (decide (i + 1 < tables.length))

end Event

end LRZero
