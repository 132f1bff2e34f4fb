import LRZero.First

/-!
# FOLLOW sets

The FOLLOW set of a non-terminal holds what can stand behind it.  Behind a
non-terminal in a body stands what the next symbol begins with or, at the
end of the body, what follows the result of the rule.  That the next symbol
may produce nothing is not considered; its FIRST set is taken as it is.
-/

namespace LRZero.Grammar

/-- The inclusions for the non-terminals of a body that produces `result`. -/
def followsIn (first : SetTable) (result : Symbol) : List Symbol → List Inclusion
  | [] => []
  | [x] => if x.isNonterminal then [⟨x, .key result⟩] else []
  | x :: y :: rest =>
    (if x.isNonterminal then [⟨x, .given (first.firstOfSymbol (some y))⟩] else []) ++
      followsIn first result (y :: rest)

/-- The inclusions for all places in rule bodies, in order. -/
def followSystem (g : Grammar) (first : SetTable) : List Inclusion :=
  g.rules.flatMap fun r => followsIn first r.result r.body

/-- A set for every result, declared non-terminal and non-terminal in a body,
and for the start symbol, which the end of the input follows. -/
def followKeys (g : Grammar) : SetTable :=
  (SetTable.ofKeys (g.rules.map (·.result) ++ g.nonterminals.toList ++
    (g.rules.flatMap (·.body)).filter (·.isNonterminal) ++ [g.start])).absorb
      g.start {some Symbol.endMark}

/-- The FOLLOW sets after every pass over the rules. -/
def followPasses (g : Grammar) : List SetTable :=
  Inclusion.passes (g.followSystem g.first) g.followKeys

/-- The FOLLOW sets. -/
def follow (g : Grammar) : SetTable :=
  Inclusion.solution (g.followSystem g.first) g.followKeys

end LRZero.Grammar
