import LRZero.Grammar

/-!
# What a check of a grammar finds

The problems are listed in a fixed order: the start symbol, the rules one by
one, symbols declared twice, non-terminals without rules, and terminals that
are spelled like non-terminals.
-/

namespace LRZero.Grammar

/-- A way in which the declarations and the rules disagree. -/
inductive Problem
  /-- No rule produces the start symbol. -/
  | startWithoutRules (start : Symbol)
  /-- A rule produces what is no declared non-terminal. -/
  | undeclaredResult (rule : Rule)
  /-- A symbol in a body is not declared. -/
  | undeclaredSymbol (symbol : Symbol) (rule : Rule)
  /-- Symbols declared as terminals and as non-terminals. -/
  | declaredTwice (symbols : List Symbol)
  /-- A declared non-terminal that no rule produces. -/
  | nonterminalWithoutRules (symbol : Symbol)
  /-- A declared terminal in upper case. -/
  | terminalInUpperCase (symbol : Symbol)
deriving DecidableEq

/-- The problem in words. -/
def Problem.message : Problem → String
  | .startWithoutRules x => "No rules for start symbol '" ++ x ++ "'"
  | .undeclaredResult r =>
    "Rule '" ++ r.text ++ "' produces undeclared non-terminal '" ++ r.result ++ "'"
  | .undeclaredSymbol x r => "Symbol '" ++ x ++ "' in rule '" ++ r.text ++ "' is not declared"
  | .declaredTwice xs =>
    "Symbols declared both terminal and non-terminal: " ++ Text.quotedList xs
  | .nonterminalWithoutRules x => "Non-terminal '" ++ x ++ "' has no rules"
  | .terminalInUpperCase x => "Terminal '" ++ x ++ "' is spelled like a non-terminal"

/-- Is the symbol declared, as a terminal or as a non-terminal? -/
def declares (g : Grammar) (x : Symbol) : Bool := x ∈ g.terminals || x ∈ g.nonterminals

/-- The problems of one rule. -/
def ruleProblems (g : Grammar) (r : Rule) : List Problem :=
  (if r.result ∈ g.nonterminals then [] else [.undeclaredResult r]) ++
    (r.body.filter fun x => !g.declares x).map fun x => .undeclaredSymbol x r

/-- The symbols declared as terminals and as non-terminals. -/
def declaredTwice (g : Grammar) : SortedSet Symbol :=
  g.terminals.filter fun x => x ∈ g.nonterminals

/-- Everything that a check finds, in order. -/
def problems (g : Grammar) : List Problem :=
  (if g.rulesFor g.start = [] then [.startWithoutRules g.start] else []) ++
  g.rules.flatMap g.ruleProblems ++
  (if g.declaredTwice = ∅ then [] else [.declaredTwice g.declaredTwice.toList]) ++
  (g.nonterminals.filter fun x => g.rulesFor x = []).toList.map .nonterminalWithoutRules ++
  (g.terminals.filter (·.isNonterminal)).toList.map .terminalInUpperCase

end LRZero.Grammar
