import LRZero.Report
import LRZero.Graph
import LRZero.Grammar.Problem

/-!
# Sessions

A session holds a grammar that changes, the analysis of it that was made
last, and a log.  Assigning the rules, or asking for an update, makes the
analysis anew; a rule that is appended, a new start symbol and newly declared
symbols leave it as it was.  The closure of one of the session's own states
changes that state in place.

A step that is refused answers with its fault and leaves the grammar and the
analysis as they were.
-/

namespace LRZero

/-- A grammar with its last analysis and what has been logged. -/
structure Session where
  grammar : Grammar
  analysis : Analysis
  log : List Event

/-- A state to work on: one of the session's own, a negative position
counting from the last one, or another one. -/
inductive StateRef
  | own (position : Int)
  | given (state : State)

/-- A step of a session. -/
inductive Step
  | setRules (rules : List Rule)
  | appendRule (rule : Rule)
  | setStart (symbol : Symbol)
  | addTerminal (symbol : Symbol)
  | addNonterminal (symbol : Symbol)
  | update
  | dump
  | rulesFor (symbol : Symbol)
  | validate
  | firstOf (symbols : List (Option Symbol))
  | closure (state : StateRef)
  | goto (state : StateRef) (symbol : Option Symbol) (number : Int)
  | collection
  | graph
  | printStates
  | takeLog

/-- The answer to a step. -/
inductive Answer
  /-- The grammar as it is now, with its last analysis. -/
  | dump (grammar : Grammar) (analysis : Analysis)
  | texts (texts : List String)
  | symbols (set : SymbolSet)
  | state (state : State)
  /-- The state that a symbol leads to, with the texts of the state it comes from. -/
  | moved (state : State) (source : List String)
  /-- A collection made afresh; does its table agree with that of the session? -/
  | collection (states : List State) (trace : Trace) (agrees : Bool)
  | graph (graph : Graph)
  | text (text : String)
  | events (log : List Event)
  | refused (fault : Fault)

namespace Session

/-- The session with its analysis made anew. -/
def update (s : Session) : Session :=
  let (analysis, log) := s.grammar.analyse
  { s with analysis := analysis, log := s.log ++ log }

/-- The session of a new grammar. -/
def start (g : Grammar) : Session :=
  let (analysis, log) := g.analyse
  ⟨g, analysis, log⟩

/-- The index that a position stands for in a list of some length. -/
def index? (length : Nat) (position : Int) : Option Nat :=
  let i := if position < 0 then length + position else position
  if 0 ≤ i ∧ i < length then some i.toNat else none

/-- The state that is referred to, with its index if it is an own one. -/
def lookup (s : Session) : StateRef → Except Fault (Option Nat × State)
  | .given state => .ok (none, state)
  | .own position =>
    match (index? s.analysis.states.length position).bind fun i =>
        (s.analysis.states[i]?).map fun state => (i, state) with
    | some (i, state) => .ok (some i, state)
    | none => .error (if isPosition position then .noSuchState else .noPosition)

/-- The session with another grammar and the same analysis. -/
def withGrammar (s : Session) (g : Grammar) : Session := { s with grammar := g }

/-- The session with more logged. -/
def logged (s : Session) (events : List Event) : Session := { s with log := s.log ++ events }

/-- The session with one of its own states changed. -/
def setState (s : Session) (i : Nat) (state : State) : Session :=
  { s with analysis := { s.analysis with states := s.analysis.states.set i state } }

/-- The answer that shows the session. -/
def shown (s : Session) : Session × Answer := (s, .dump s.grammar s.analysis)

/-- The closure of a state; an own state is changed in place. -/
def closure (s : Session) (ref : StateRef) : Session × Answer :=
  match s.lookup ref with
  | .error f => (s, .refused f)
  | .ok (i?, state) =>
    match s.grammar.closure? state with
    | (.error f, log) => (s.logged log, .refused f)
    | (.ok closed, log) =>
      match i? with
      | some i => ((s.logged log).setState i closed, .state closed)
      | none => (s.logged log, .state closed)

/-- The state that a symbol leads to. -/
def goto (s : Session) (ref : StateRef) (x : Option Symbol) (number : Int) : Session × Answer :=
  match s.lookup ref with
  | .error f => (s, .refused f)
  | .ok (_, state) =>
    match s.grammar.goto? state x number with
    | (.error f, log) => (s.logged log, .refused f)
    | (.ok target, log) => (s.logged log, .moved target state.texts)

/-- The session after a step, with the answer to it. -/
def step (s : Session) : Step → Session × Answer
  | .setRules rules => (s.withGrammar { s.grammar with rules := rules }).update.shown
  | .appendRule r => (s.withGrammar { s.grammar with rules := s.grammar.rules ++ [r] }).shown
  | .setStart x => (s.withGrammar { s.grammar with start := x }).shown
  | .addTerminal x =>
    (s.withGrammar { s.grammar with terminals := s.grammar.terminals.insert x }).shown
  | .addNonterminal x =>
    (s.withGrammar { s.grammar with nonterminals := s.grammar.nonterminals.insert x }).shown
  | .update => s.update.shown
  | .dump => s.shown
  | .rulesFor x => (s, .texts ((s.grammar.rulesFor x).map (·.text)))
  | .validate => (s, .texts (s.grammar.problems.map (·.message)))
  | .firstOf xs => (s, .symbols (s.grammar.first.firstOf xs))
  | .closure ref => s.closure ref
  | .goto ref x number => s.goto ref x number
  | .collection =>
    let c := s.grammar.collection
    (s.logged c.log, .collection c.states c.trace (c.trace = s.analysis.trace))
  | .graph => (s, .graph (.ofTrace s.analysis.states s.analysis.trace))
  | .printStates => (s, .text (statesText s.analysis.states ++ "\n"))
  | .takeLog => ({ s with log := [] }, .events s.log)

/-- The session after a number of steps, with the answer to each of them. -/
def run (s : Session) : List Step → Session × List Answer
  | [] => (s, [])
  | step :: rest =>
    let (next, answer) := s.step step
    let (last, answers) := next.run rest
    (last, answer :: answers)

end Session

end LRZero
