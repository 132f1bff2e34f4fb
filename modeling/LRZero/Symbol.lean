import LRZero.Text.Case

/-!
# Symbols

A symbol of a grammar is any text.  How it is spelled says what it is: a
symbol in upper case with at least one letter is a non-terminal, and every
other one, the empty text included, is a terminal.  The reader, the solvers
and the closure of item sets all go by the spelling; what a grammar declares
matters only when it is checked.
-/

namespace LRZero

/-- A symbol of a grammar. -/
abbrev Symbol := String

namespace Symbol

/-- The end of the input, which follows the start symbol. -/
def endMark : Symbol := "$"

/-- The dot of an item. -/
def dotMark : Symbol := "•"

/-- What an empty cell of a transition table shows. -/
def emptyCell : String := "∅"

/-- Is the symbol spelled in upper case, with at least one letter that has a
lower case? -/
def isNonterminal (s : Symbol) : Bool :=
  s ≠ "" && Text.upper s = s && Text.lower s ≠ s

/-- Is there a symbol, and is it a non-terminal? -/
def isNonterminal? (s : Option Symbol) : Bool := s.any (·.isNonterminal)

end Symbol

end LRZero
