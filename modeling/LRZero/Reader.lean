import LRZero.Analysis
import LRZero.Grammar.Problem
import LRZero.Text.Words

/-!
# Reading a grammar

A grammar text has one alternative on each line:

    EXPR : EXPR + TERM
         | TERM
    TERM : id

A line is cut into words at white space.  A header starts with a non-terminal
and a colon, an alternative with a bar, and the words behind them are the
body of a rule, which may be empty; the result of an alternative is that of
the rule before it.  Blank lines mean nothing.  Any other line, and an
alternative before the first header, is unexpected: lenient reading skips it
with a warning, strict reading stops there.

The first header gives the start symbol.  The symbols that are used are
declared by their spelling.  Strict reading refuses a grammar in which a
check finds problems.
-/

namespace LRZero

/-- Why a text is not accepted as a grammar. -/
inductive ReadError
  /-- A line says nothing that a grammar says. -/
  | unexpectedLine (number : Nat) (line : String)
  /-- There is no header in the text. -/
  | noRules
  /-- The grammar has problems. -/
  | problems (found : List Grammar.Problem)
deriving DecidableEq

namespace ReadError

/-- The error in words, without its place. -/
def reason : ReadError → String
  | unexpectedLine .. => "unexpected input"
  | noRules => "no rules found"
  | problems found => "; ".intercalate (found.map (·.message))

/-- The number and the text of the line that is to blame, if one is. -/
def place? : ReadError → Option (Nat × String)
  | unexpectedLine number line => some (number, line)
  | _ => none

/-- The error in words, with its place. -/
def message (e : ReadError) : String :=
  match e.place? with
  | some (number, line) => s!"line {number}: {e.reason}: {Text.quoted line}"
  | none => e.reason

end ReadError

/-! ## Lines -/

/-- What a line says by its words alone. -/
inductive Line
  | blank
  | header (result : Symbol) (body : List Symbol)
  | alternative (body : List Symbol)
  | other
deriving DecidableEq

/-- What the words of a line say. -/
def Line.ofWords : List String → Line
  | [] => .blank
  | "|" :: body => .alternative body
  | x :: ":" :: body => if Symbol.isNonterminal x then .header x body else .other
  | _ => .other

/-- What a line means behind some rules. -/
inductive Entry
  | nothing
  | rule (r : Rule)
  | unexpected
deriving DecidableEq

/-- The meaning of a line behind the rules read so far. -/
def Line.entry (rules : List Rule) : Line → Entry
  | .blank => .nothing
  | .header result body => .rule ⟨result, body⟩
  | .alternative body =>
    match rules.getLast? with
    | some r => .rule ⟨r.result, body⟩
    | none => .unexpected
  | .other => .unexpected

/-! ## Texts -/

/-- How far the lines of a text have been read: the rules found, the log,
and the line at which strict reading has stopped. -/
structure Reading where
  rules : List Rule
  log : List Event
  stopped : Option (Nat × String)
deriving DecidableEq

/-- The reading with one more rule; the first one gives the start symbol. -/
def Reading.push (r : Reading) (rule : Rule) : Reading :=
  { r with
    rules := r.rules ++ [rule]
    log := if r.rules = [] then r.log ++ [.startSymbol rule.result] else r.log }

/-- The reading carried on over some lines, the first of them with a given number. -/
def Reading.lines (strict : Bool) (r : Reading) (number : Nat) : List String → Reading
  | [] => r
  | line :: rest =>
    match (Line.ofWords (Text.words line)).entry r.rules with
    | .nothing => r.lines strict (number + 1) rest
    | .rule rule => (r.push rule).lines strict (number + 1) rest
    | .unexpected =>
      if strict then { r with stopped := some (number, line) }
      else
        Reading.lines strict
          { r with log := r.log ++ [.unexpectedLine number (Text.strip line)] } (number + 1) rest

/-- The reading of all lines of a text. -/
def Reading.ofText (strict : Bool) (text : String) : Reading :=
  Reading.lines strict ⟨[], [], none⟩ 1 (Text.lines text)

/-- The symbols used in some rules. -/
def usedSymbols (rules : List Rule) : List Symbol := rules.flatMap fun r => r.result :: r.body

/-- The grammar of some rules: it starts with the first result, and the
symbols used are declared by their spelling. -/
def Grammar.ofRules? (rules : List Rule) : Option Grammar :=
  rules.head?.map fun r =>
    { start := r.result
      terminals := .ofList ((usedSymbols rules).filter fun x => !x.isNonterminal)
      nonterminals := .ofList ((usedSymbols rules).filter (·.isNonterminal))
      rules := rules }

/-- A grammar that has been read, with its analysis. -/
structure Analysed where
  grammar : Grammar
  analysis : Analysis

/-- What reading has come to, with the log. -/
structure ReadOutcome where
  result : Except ReadError Analysed
  log : List Event

/-- The outcome of reading a text. -/
def read (strict : Bool) (text : String) : ReadOutcome :=
  let reading := Reading.ofText strict text
  match reading.stopped, Grammar.ofRules? reading.rules with
  | some (number, line), _ => ⟨.error (.unexpectedLine number line), reading.log⟩
  | none, none => ⟨.error .noRules, reading.log⟩
  | none, some g =>
    let (analysis, analysisLog) := g.analyse
    let log := reading.log ++
      [.terminals g.terminals.toList, .nonterminals g.nonterminals.toList] ++ analysisLog
    if strict ∧ g.problems ≠ [] then ⟨.error (.problems g.problems), log⟩
    else ⟨.ok ⟨g, analysis⟩, log⟩

end LRZero
