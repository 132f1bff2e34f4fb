import LRZero.Text.Quoted

/-!
# Refused operations

What the operations on rules, items, states and tables refuse to do.
-/

namespace LRZero

/-- Why an operation is refused. -/
inductive Fault
  /-- A part of a rule cannot be changed. -/
  | fixedPart (name : String)
  /-- A state can still grow, so it is no key of a table. -/
  | stateAsKey
  /-- The dot of an item stands behind the body already. -/
  | dotAtEnd
  /-- The dot of an item stands before the body, where no symbol is next. -/
  | dotBeforeBody
  /-- A number is too far from zero to be a position at all. -/
  | noPosition
  /-- There is no state at a position. -/
  | noSuchState
  /-- A table has no such key. -/
  | noSuchKey (symbol : String)
deriving DecidableEq

/-- The fault in words. -/
def Fault.message : Fault → String
  | .fixedPart name => "cannot assign to field " ++ Text.quoted name
  | .stateAsKey => "unhashable type: 'State'"
  | .dotAtEnd => "Dot position exceeds symbols amount"
  | .dotBeforeBody => "tuple index out of range"
  | .noPosition => "cannot fit 'int' into an index-sized integer"
  | .noSuchState => "list index out of range"
  | .noSuchKey symbol => Text.quoted symbol

/-- The numbers that can be a position in a list, where a negative one counts
from the end: those that fit into 64 bits with their sign. -/
def isPosition (n : Int) : Bool :=
  decide (-9223372036854775808 ≤ n ∧ n ≤ 9223372036854775807)

end LRZero
