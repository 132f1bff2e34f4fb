import LRZero.Rule
import LRZero.SortedSet

/-!
# Grammars

A context-free grammar is taken as it is given: symbols that are not
declared and non-terminals without rules are allowed.  `Grammar.Problem`
says what a check finds.
-/

namespace LRZero

/-- A start symbol, the declared symbols and the rules in order. -/
structure Grammar where
  start : Symbol
  terminals : SortedSet Symbol
  nonterminals : SortedSet Symbol
  rules : List Rule
deriving DecidableEq

namespace Grammar

/-- The rules that produce a symbol, in order. -/
def rulesFor (g : Grammar) (x : Symbol) : List Rule := g.rules.filter (·.result = x)

/-- The symbols of the grammar: declared ones, results, and those in bodies. -/
def symbols (g : Grammar) : SortedSet Symbol :=
  g.terminals ∪ g.nonterminals ∪
    SortedSet.ofList (g.rules.flatMap fun r => r.result :: r.body)

/-- The start symbol and the numbered rules, one to a line. -/
def text (g : Grammar) : String :=
  "\n".intercalate (("start: " ++ g.start) ::
    g.rules.mapIdx fun i r => "  " ++ toString i ++ ": " ++ r.text)

end Grammar

end LRZero
