import LRZero.Grammar
import LRZero.Inclusion

/-!
# FIRST sets

The FIRST set of a symbol holds what the bodies of its rules begin with.
Only the leading symbol of a body is looked at: an empty body contributes
`none`, and a leading non-terminal hands on what its own set holds, `none`
included, whatever stands behind it.
-/

namespace LRZero

/-- What a body contributes to the FIRST set of its result. -/
def Source.ofBody : List Symbol → Source
  | [] => .given {none}
  | x :: _ => if x.isNonterminal then .key x else .given {some x}

/-- The FIRST set of a symbol, where the mark of an empty body stands for itself. -/
def SetTable.firstOfSymbol (first : SetTable) : Option Symbol → SymbolSet
  | none => {none}
  | some x => if x.isNonterminal then first.get x else {some x}

/-- The FIRST set of a sequence of symbols: that of its leading symbol. -/
def SetTable.firstOf (first : SetTable) : List (Option Symbol) → SymbolSet
  | [] => ∅
  | x :: _ => first.firstOfSymbol x

namespace Grammar

/-- One inclusion for each rule: its result has what its body contributes. -/
def firstSystem (g : Grammar) : List Inclusion :=
  g.rules.map fun r => ⟨r.result, .ofBody r.body⟩

/-- An empty set for the result of every rule. -/
def firstKeys (g : Grammar) : SetTable := .ofKeys (g.rules.map (·.result))

/-- The FIRST sets after every pass over the rules. -/
def firstPasses (g : Grammar) : List SetTable := Inclusion.passes g.firstSystem g.firstKeys

/-- The FIRST sets. -/
def first (g : Grammar) : SetTable := Inclusion.solution g.firstSystem g.firstKeys

end Grammar

end LRZero
