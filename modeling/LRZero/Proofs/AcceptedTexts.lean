import LRZero.Reader
import LRZero.Proofs.CanonicalCollection
import LRZero.Proofs.WordsAndLines

/-!
# What is read from a text that is accepted

Reading runs over the lines of a text.  What each line keeps, the reading of
all of them keeps (`Reading.lines_induction`); so every rule that is read is
made of words (`Rule.Readable`).  A text is accepted exactly if no line has
stopped the reading, there is a rule, and strict reading finds no problems
(`read_eq_ok_iff`).  What is returned depends on the rules alone, and reading
with the start symbol and the declared symbols kept beside the rules comes to
the same (`draft_ofText`).  The log of the analysis has details only
(`quiet_analyse`), so all warnings stem from lines.
-/

namespace LRZero

/-- A rule that one line can say: its symbols are words, and its result is a
non-terminal. -/
structure Rule.Readable (r : Rule) : Prop where
  isNonterminal : r.result.isNonterminal
  result : Text.IsWord r.result
  body : ∀ x ∈ r.body, Text.IsWord x

instance (r : Rule) : Decidable r.Readable :=
  decidable_of_iff (r.result.isNonterminal ∧ Text.IsWord r.result ∧ ∀ x ∈ r.body, Text.IsWord x)
    ⟨fun ⟨h₁, h₂, h₃⟩ => ⟨h₁, h₂, h₃⟩, fun ⟨h₁, h₂, h₃⟩ => ⟨h₁, h₂, h₃⟩⟩

/-! ## Lines -/

namespace Line

theorem bar_ne_of_isNonterminal {x : Symbol} (h : x.isNonterminal) : x ≠ "|" := by
  rintro rfl
  exact absurd h (by decide)

theorem ofWords_bar (body : List Symbol) : ofWords ("|" :: body) = .alternative body := rfl

theorem ofWords_header {x : Symbol} (hx : x.isNonterminal) (body : List Symbol) :
    ofWords (x :: ":" :: body) = .header x body := by
  rw [ofWords.eq_3 _ _ (bar_ne_of_isNonterminal hx), if_pos hx]

theorem eq_of_ofWords_header {ws : List String} {x : Symbol} {body : List Symbol}
    (h : ofWords ws = .header x body) : ws = x :: ":" :: body ∧ x.isNonterminal := by
  unfold ofWords at h
  split at h
  · cases h
  · cases h
  · split at h
    · next hx =>
      cases h
      exact ⟨rfl, hx⟩
    · cases h
  · cases h

theorem eq_of_ofWords_alternative {ws : List String} {body : List Symbol}
    (h : ofWords ws = .alternative body) : ws = "|" :: body := by
  unfold ofWords at h
  split at h
  · cases h
  · cases h
    rfl
  · split at h
    · cases h
    · cases h
  · cases h

/-- What a line gives behind readable rules is readable. -/
theorem readable_of_entry {rules : List Rule} (hrules : ∀ r ∈ rules, r.Readable) {line : String}
    {r : Rule} (h : (ofWords (Text.words line)).entry rules = .rule r) : r.Readable := by
  have hwords : ∀ w ∈ Text.words line, Text.IsWord w := fun w hw => Text.isWord_of_mem_words hw
  cases hline : ofWords (Text.words line) with
  | blank =>
    rw [hline] at h
    cases h
  | other =>
    rw [hline] at h
    cases h
  | header x body =>
    rw [hline] at h
    cases h
    obtain ⟨he, hx⟩ := eq_of_ofWords_header hline
    rw [he] at hwords
    refine ⟨hx, hwords x List.mem_cons_self, fun y hy => hwords y ?_⟩
    exact List.mem_cons_of_mem _ (List.mem_cons_of_mem _ hy)
  | alternative body =>
    rw [eq_of_ofWords_alternative hline] at hwords
    cases hlast : rules.getLast? with
    | none =>
      simp only [hline, entry, hlast] at h
      cases h
    | some s =>
      simp only [hline, entry, hlast] at h
      cases h
      have hs := hrules s (List.mem_of_getLast? hlast)
      exact ⟨hs.isNonterminal, hs.result, fun y hy => hwords y (List.mem_cons_of_mem _ hy)⟩

end Line

/-! ## Readings -/

namespace Reading

variable {strict : Bool} {r : Reading} {number : Nat}

theorem lines_cons_nothing {line : String} (rest : List String)
    (h : (Line.ofWords (Text.words line)).entry r.rules = .nothing) :
    r.lines strict number (line :: rest) = r.lines strict (number + 1) rest := by
  rw [lines, h]

theorem lines_cons_rule {line : String} (rest : List String) {rule : Rule}
    (h : (Line.ofWords (Text.words line)).entry r.rules = .rule rule) :
    r.lines strict number (line :: rest) = (r.push rule).lines strict (number + 1) rest := by
  rw [lines, h]

theorem lines_cons_unexpected {line : String} (rest : List String)
    (h : (Line.ofWords (Text.words line)).entry r.rules = .unexpected) :
    r.lines false number (line :: rest) =
      Reading.lines false { r with log := r.log ++ [.unexpectedLine number (Text.strip line)] }
        (number + 1) rest := by
  rw [lines, h]
  rfl

theorem getLast?_push (r : Reading) (rule : Rule) :
    (r.push rule).rules.getLast?.map (·.result) = some rule.result := by
  rw [push, List.getLast?_concat]
  rfl

theorem head?_push (r : Reading) (rule : Rule) : (r.push rule).rules.head?.map (·.result) =
    (r.rules.head?.map (·.result)).or (some rule.result) := by
  rw [push, List.head?_append, Option.map_or]
  rfl

/-- What every line with a meaning keeps, the reading of all lines keeps. -/
theorem lines_induction {P : Reading → Prop}
    (hpush : ∀ (r : Reading) (line : String) (rule : Rule), P r →
      (Line.ofWords (Text.words line)).entry r.rules = .rule rule → P (r.push rule))
    (hskip : ∀ (r : Reading) (log : List Event) (stopped : Option (Nat × String)), P r →
      P ⟨r.rules, log, stopped⟩) :
    ∀ (ls : List String) (r : Reading) (number : Nat), P r → P (r.lines strict number ls)
  | [], _, _, h => h
  | line :: rest, r, number, h => by
    rw [lines]
    split
    · exact lines_induction hpush hskip rest r _ h
    · next rule hrule => exact lines_induction hpush hskip rest _ _ (hpush r line rule h hrule)
    · split
      · exact hskip r _ _ h
      · exact lines_induction hpush hskip rest _ _ (hskip r _ _ h)

/-- The rules that are read can be said by a line each. -/
theorem readable_of_mem_ofText {text : String} :
    ∀ rule ∈ (ofText strict text).rules, rule.Readable := by
  refine lines_induction (P := fun r => ∀ rule ∈ r.rules, rule.Readable) ?_ ?_ _ _ _ ?_
  · intro r line rule h hrule s hs
    rcases List.mem_append.mp hs with hs | hs
    · exact h s hs
    · rw [List.mem_singleton.mp hs]
      exact Line.readable_of_entry h hrule
  · exact fun _ _ _ h => h
  · exact fun _ h => absurd h List.not_mem_nil

end Reading

/-! ## Grammars -/

theorem Grammar.exists_ofRules? {rules : List Rule} (h : rules ≠ []) :
    ∃ g, Grammar.ofRules? rules = some g := by
  obtain ⟨r, rest, rfl⟩ := List.exists_cons_of_ne_nil h
  exact ⟨_, rfl⟩

/-- The parts of the grammar of some rules. -/
theorem Grammar.parts_of_ofRules? {rules : List Rule} {g : Grammar}
    (h : Grammar.ofRules? rules = some g) :
    g.rules = rules ∧ rules.head?.map (·.result) = some g.start ∧
      (∀ x, x ∈ g.terminals ↔ x ∈ usedSymbols rules ∧ ¬ x.isNonterminal) ∧
      ∀ x, x ∈ g.nonterminals ↔ x ∈ usedSymbols rules ∧ x.isNonterminal := by
  obtain ⟨r, hr, rfl⟩ := Option.map_eq_some_iff.mp h
  refine ⟨rfl, ?_, fun x => ?_, fun x => ?_⟩
  · rw [hr]
    rfl
  · simp [SortedSet.mem_ofList]
  · simp [SortedSet.mem_ofList]

/-- The rules of the start symbol are those with the result of the first rule. -/
theorem Grammar.rulesFor_start {r : Rule} {rest : List Rule} {g : Grammar}
    (h : Grammar.ofRules? (r :: rest) = some g) :
    g.rulesFor g.start = (r :: rest).filter fun s => s.result = r.result := by
  obtain ⟨hrules, hstart, -, -⟩ := parts_of_ofRules? h
  rw [rulesFor, hrules, ← Option.some.inj hstart]

/-! ## Grammars in the making

A reading keeps the rules only: which result an alternative gets, where the
grammar starts and what it declares is read off them.  A draft carries all of
that along from line to line, and the same comes of it. -/

theorem SortedSet.ofList_concat (xs : List Symbol) (x : Symbol) :
    SortedSet.ofList (xs ++ [x]) = (SortedSet.ofList xs).insert x := by
  rw [SortedSet.ofList, SortedSet.ofList, List.foldl_append]
  rfl

theorem usedSymbols_concat (rules : List Rule) (r : Rule) :
    usedSymbols (rules ++ [r]) = usedSymbols rules ++ r.result :: r.body := by
  rw [usedSymbols, List.flatMap_append, List.flatMap_singleton]
  rfl

/-- The symbols declared so far. -/
structure Declared where
  terminals : SortedSet Symbol
  nonterminals : SortedSet Symbol

namespace Declared

/-- One more symbol, declared by its spelling. -/
def add (d : Declared) (x : Symbol) : Declared :=
  if x.isNonterminal then { d with nonterminals := d.nonterminals.insert x }
  else { d with terminals := d.terminals.insert x }

/-- Some symbols, all declared by their spelling. -/
def ofSymbols (xs : List Symbol) : Declared where
  terminals := .ofList (xs.filter fun x => !x.isNonterminal)
  nonterminals := .ofList (xs.filter (·.isNonterminal))

theorem add_ofSymbols (xs : List Symbol) (x : Symbol) :
    (ofSymbols xs).add x = ofSymbols (xs ++ [x]) := by
  rw [ofSymbols, ofSymbols, List.filter_append, List.filter_append]
  by_cases hx : x.isNonterminal
  · simp [add, hx, SortedSet.ofList_concat]
  · simp [add, hx, SortedSet.ofList_concat]

theorem foldl_add_ofSymbols (xs ys : List Symbol) :
    ys.foldl add (ofSymbols xs) = ofSymbols (xs ++ ys) := by
  induction ys generalizing xs with
  | nil => rw [List.append_nil, List.foldl_nil]
  | cons y ys ih =>
    rw [List.foldl_cons, add_ofSymbols, ih, List.append_assoc]
    rfl

theorem ofSymbols_congr {xs ys : List Symbol} (h : ∀ x, x ∈ xs ↔ x ∈ ys) :
    ofSymbols xs = ofSymbols ys := by
  have hfilter : ∀ p : Symbol → Bool,
      SortedSet.ofList (xs.filter p) = SortedSet.ofList (ys.filter p) := by
    intro p
    refine SortedSet.ext fun x => ?_
    rw [SortedSet.mem_ofList, SortedSet.mem_ofList, List.mem_filter, List.mem_filter, h]
  rw [ofSymbols, ofSymbols, hfilter, hfilter]

/-- A symbol declared already may be declared again. -/
theorem ofSymbols_insert {xs : List Symbol} {x : Symbol} (hx : x ∈ xs) (ys : List Symbol) :
    ofSymbols (xs ++ x :: ys) = ofSymbols (xs ++ ys) := by
  refine ofSymbols_congr fun y => ?_
  rw [List.mem_append, List.mem_append, List.mem_cons]
  constructor
  · rintro (h | rfl | h)
    · exact .inl h
    · exact .inl hx
    · exact .inr h
  · rintro (h | h)
    · exact .inl h
    · exact .inr (.inr h)

end Declared

/-- What a loop over the lines carries along. -/
@[ext]
structure Draft where
  /-- The result that an alternative would get. -/
  current : Option Symbol
  start : Option Symbol
  declared : Declared
  rules : List Rule
  log : List Event
  stopped : Option (Nat × String)

namespace Draft

variable {r : Reading} {x : Symbol}

/-- The draft at a header: the first one gives the start symbol. -/
def head (d : Draft) (x : Symbol) : Draft :=
  { d with
    current := some x
    start := d.start.or (some x)
    declared := { d.declared with nonterminals := d.declared.nonterminals.insert x }
    log := if d.start = none then d.log ++ [.startSymbol x] else d.log }

/-- The draft with one more rule, the symbols of its body declared one by one. -/
def addRule (d : Draft) (x : Symbol) (body : List Symbol) : Draft :=
  { d with
    declared := body.foldl Declared.add d.declared
    rules := d.rules ++ [⟨x, body⟩] }

/-- The draft behind a line, unless the line is unexpected. -/
def step? (d : Draft) (line : String) : Option Draft :=
  match Line.ofWords (Text.words line), d.current with
  | .blank, _ => some d
  | .header x body, _ => some ((d.head x).addRule x body)
  | .alternative body, some x => some (d.addRule x body)
  | .alternative _, none => none
  | .other, _ => none

/-- The draft carried on over some lines, the first of them with a given number. -/
def lines (strict : Bool) (d : Draft) (number : Nat) : List String → Draft
  | [] => d
  | line :: rest =>
    match d.step? line with
    | some d' => d'.lines strict (number + 1) rest
    | none =>
      if strict then { d with stopped := some (number, line) }
      else
        Draft.lines strict
          { d with log := d.log ++ [.unexpectedLine number (Text.strip line)] } (number + 1) rest

/-- The draft of all lines of a text. -/
def ofText (strict : Bool) (text : String) : Draft :=
  Draft.lines strict ⟨none, none, ⟨∅, ∅⟩, [], [], none⟩ 1 (Text.lines text)

/-- The grammar of a draft that has a start symbol. -/
def grammar? (d : Draft) : Option Grammar :=
  d.start.map fun x => ⟨x, d.declared.terminals, d.declared.nonterminals, d.rules⟩

/-- The draft that a reading stands for. -/
def ofReading (r : Reading) : Draft where
  current := r.rules.getLast?.map (·.result)
  start := r.rules.head?.map (·.result)
  declared := .ofSymbols (usedSymbols r.rules)
  rules := r.rules
  log := r.log
  stopped := r.stopped

theorem declared_push (rule : Rule) : (ofReading (r.push rule)).declared =
    .ofSymbols (usedSymbols r.rules ++ rule.result :: rule.body) :=
  congrArg Declared.ofSymbols (usedSymbols_concat r.rules rule)

theorem start_eq_none_iff : (ofReading r).start = none ↔ r.rules = [] := by
  rw [ofReading, Option.map_eq_none_iff, List.head?_eq_none_iff]

/-- A header and its rule are one step of a reading. -/
theorem head_ofReading (hx : x.isNonterminal) (body : List Symbol) :
    ((ofReading r).head x).addRule x body = ofReading (r.push ⟨x, body⟩) := by
  have hdeclared : ((ofReading r).head x).declared = .ofSymbols (usedSymbols r.rules ++ [x]) := by
    rw [← Declared.add_ofSymbols, Declared.add, if_pos hx]
    rfl
  refine Draft.ext (r.getLast?_push ⟨x, body⟩).symm (r.head?_push ⟨x, body⟩).symm ?_ rfl ?_ rfl
  · rw [declared_push, addRule, hdeclared, Declared.foldl_add_ofSymbols, List.append_assoc]
    rfl
  · show (if (ofReading r).start = none then _ else _) = if r.rules = [] then _ else _
    simp only [start_eq_none_iff]
    rfl

/-- An alternative behind a rule is one step of a reading. -/
theorem addRule_ofReading {s : Rule} (hs : r.rules.getLast? = some s) (body : List Symbol) :
    (ofReading r).addRule s.result body = ofReading (r.push ⟨s.result, body⟩) := by
  have hmem : s ∈ r.rules := List.mem_of_getLast? hs
  have hne : r.rules ≠ [] := List.ne_nil_of_mem hmem
  have hused : s.result ∈ usedSymbols r.rules :=
    List.mem_flatMap.mpr ⟨s, hmem, List.mem_cons_self⟩
  refine Draft.ext ?_ ?_ ?_ rfl ?_ rfl
  · show r.rules.getLast?.map (·.result) = _
    rw [hs]
    exact (r.getLast?_push ⟨s.result, body⟩).symm
  · obtain ⟨y, hy⟩ := Option.ne_none_iff_exists'.mp fun h => hne (start_eq_none_iff.mp h)
    have hor : (ofReading r).start = (ofReading r).start.or (some s.result) := by
      rw [hy]
      rfl
    exact hor.trans (r.head?_push ⟨s.result, body⟩).symm
  · rw [declared_push, Declared.ofSymbols_insert hused, ← Declared.foldl_add_ofSymbols]
    rfl
  · show r.log = if r.rules = [] then _ else _
    rw [if_neg hne]

/-- A line does to the draft what it does to the reading. -/
theorem step?_ofReading (r : Reading) (line : String) : (ofReading r).step? line =
    match (Line.ofWords (Text.words line)).entry r.rules with
    | .nothing => some (ofReading r)
    | .rule rule => some (ofReading (r.push rule))
    | .unexpected => none := by
  have hcurrent : (ofReading r).current = r.rules.getLast?.map (·.result) := rfl
  rw [step?, hcurrent]
  cases hline : Line.ofWords (Text.words line) with
  | blank => rfl
  | header x body => exact congrArg some (head_ofReading (Line.eq_of_ofWords_header hline).2 body)
  | alternative body =>
    rw [Line.entry]
    cases hlast : r.rules.getLast? with
    | none => rfl
    | some s => exact congrArg some (addRule_ofReading hlast body)
  | other => rfl

/-- From any line on the draft goes along with the reading. -/
theorem lines_ofReading (strict : Bool) (ls : List String) (r : Reading) (number : Nat) :
    (ofReading r).lines strict number ls = ofReading (r.lines strict number ls) := by
  induction ls generalizing r number with
  | nil => rfl
  | cons line rest ih =>
    rw [lines, step?_ofReading, Reading.lines]
    cases (Line.ofWords (Text.words line)).entry r.rules with
    | nothing => exact ih r (number + 1)
    | rule rule => exact ih (r.push rule) (number + 1)
    | unexpected =>
      cases strict with
      | true => rfl
      | false =>
        exact ih { r with log := r.log ++ [.unexpectedLine number (Text.strip line)] } (number + 1)

theorem grammar?_ofReading (r : Reading) : (ofReading r).grammar? = Grammar.ofRules? r.rules := by
  rw [grammar?, ofReading, Option.map_map]
  rfl

end Draft

/-- A text is stopped at, logged and made into a grammar in the same way, whether
all is carried along from line to line or only the rules are. -/
theorem draft_ofText (strict : Bool) (text : String) :
    (Draft.ofText strict text).stopped = (Reading.ofText strict text).stopped ∧
      (Draft.ofText strict text).log = (Reading.ofText strict text).log ∧
      (Draft.ofText strict text).rules = (Reading.ofText strict text).rules ∧
      (Draft.ofText strict text).grammar? = Grammar.ofRules? (Reading.ofText strict text).rules := by
  have hdraft : Draft.ofText strict text = Draft.ofReading (Reading.ofText strict text) :=
    Draft.lines_ofReading strict (Text.lines text) ⟨[], [], none⟩ 1
  rw [hdraft]
  exact ⟨rfl, rfl, rfl, Draft.grammar?_ofReading _⟩

/-- Where no line has stopped the reading and there is a rule, only strict
reading can refuse, and only for problems. -/
theorem result_read {strict : Bool} {text : String} {g : Grammar}
    (hstopped : (Reading.ofText strict text).stopped = none)
    (hg : Grammar.ofRules? (Reading.ofText strict text).rules = some g) :
    (read strict text).result =
      if strict ∧ g.problems ≠ [] then .error (.problems g.problems) else .ok ⟨g, g.analysis⟩ := by
  rw [read, hstopped, hg]
  dsimp only
  split <;> rfl

/-- A text is accepted when no line has stopped the reading, there is a rule,
and, in strict reading, the grammar has no problems. -/
theorem read_eq_ok_iff {strict : Bool} {text : String} {a : Analysed} :
    (read strict text).result = .ok a ↔
      (Reading.ofText strict text).stopped = none ∧
        Grammar.ofRules? (Reading.ofText strict text).rules = some a.grammar ∧
        a.analysis = a.grammar.analysis ∧ (strict → a.grammar.problems = []) := by
  rw [read]
  cases hstopped : (Reading.ofText strict text).stopped with
  | some place => simp
  | none =>
    cases hg : Grammar.ofRules? (Reading.ofText strict text).rules with
    | none => simp
    | some g =>
      by_cases hproblems : strict ∧ g.problems ≠ []
      · dsimp only
        rw [if_pos hproblems]
        constructor
        · intro h
          cases h
        · rintro ⟨-, he, -, h⟩
          cases he
          exact absurd (h hproblems.1) hproblems.2
      · dsimp only
        rw [if_neg hproblems]
        constructor
        · intro h
          cases h
          exact ⟨rfl, rfl, rfl, fun hs => Decidable.byContradiction fun hne => hproblems ⟨hs, hne⟩⟩
        · rintro ⟨-, he, ha, -⟩
          obtain ⟨grammar, analysis⟩ := a
          obtain rfl : g = grammar := Option.some.inj he
          obtain rfl : analysis = g.analysis := ha
          rfl

theorem Text.IsWord.spaceless {w : String} (h : Text.IsWord w) : Symbol.Spaceless w :=
  ⟨h.1, fun hspace => h.2 ' ' hspace rfl⟩

theorem Rule.Readable.spaceless {r : Rule} (h : r.Readable) : r.Spaceless :=
  ⟨h.result.spaceless, fun x hx => (h.body x hx).spaceless⟩

theorem spaceless_of_read {strict : Bool} {text : String} {a : Analysed}
    (h : (read strict text).result = .ok a) : ∀ r ∈ a.grammar.rules, r.Spaceless := by
  obtain ⟨-, hg, -, -⟩ := read_eq_ok_iff.mp h
  rw [(Grammar.parts_of_ofRules? hg).1]
  exact fun r hr => (Reading.readable_of_mem_ofText r hr).spaceless

/-! ## The log -/

/-- There is no warning in the log. -/
def Quiet (log : List Event) : Prop := ∀ e ∈ log, e.level = .detail

theorem quiet_nil : Quiet [] := fun _ he => absurd he List.not_mem_nil

theorem Quiet.append {log log' : List Event} (h : Quiet log) (h' : Quiet log') :
    Quiet (log ++ log') := by
  intro e he
  rcases List.mem_append.mp he with he | he
  · exact h e he
  · exact h' e he

theorem quiet_singleton {e : Event} (h : e.level = .detail) : Quiet [e] := by
  intro d hd
  rw [List.mem_singleton.mp hd]
  exact h

/-- With one more rule there is at most a detail more in the log. -/
theorem Reading.exists_log_push (r : Reading) (rule : Rule) :
    ∃ tail, Quiet tail ∧ r.log ++ tail = (r.push rule).log := by
  rw [push]
  dsimp only
  split
  · exact ⟨_, quiet_singleton rfl, rfl⟩
  · exact ⟨[], quiet_nil, List.append_nil _⟩

theorem Reading.quiet_push {r : Reading} {rule : Rule} (h : Quiet r.log) :
    Quiet (r.push rule).log := by
  obtain ⟨tail, htail, he⟩ := r.exists_log_push rule
  rw [← he]
  exact h.append htail

theorem quiet_ofPasses (family : SetFamily) (tables : List SetTable) :
    Quiet (Event.ofPasses family tables) := by
  intro e he
  obtain ⟨i, -, rfl⟩ := List.mem_mapIdx.mp he
  rfl

namespace Grammar

variable {g : Grammar}

theorem quiet_closureLog (s : State) : Quiet (g.closureLog s) := by
  intro e he
  obtain ⟨x, -, rfl⟩ := List.mem_map.mp he
  rfl

theorem quiet_follow {s : State} (hs : g.Within s) {v : Visit g} (x : Symbol) (h : Quiet v.log) :
    Quiet (v.follow s hs x).log := by
  have hclosure : Quiet (v.log ++ g.closureLog (kernel s x v.known.states.length)) :=
    h.append (quiet_closureLog _)
  rcases Visit.follow_cases s hs v x with ⟨n, -, he⟩ | ⟨-, he⟩
  · rw [he]
    exact hclosure
  · rw [he]
    exact hclosure.append (quiet_singleton rfl)

theorem quiet_visit (known : Known g) {s : State} (hs : g.Within s) :
    Quiet (visit known s hs).log := by
  have : ∀ (xs : List Symbol) (v : Visit g), Quiet v.log →
      Quiet (xs.foldl (Visit.follow s hs) v).log := by
    intro xs
    induction xs with
    | nil => exact fun _ h => h
    | cons x xs ih => exact fun v h => ih _ (quiet_follow hs x h)
  exact this s.nextSymbols _ quiet_nil

theorem quiet_search (known : Known g) (moves : List (List (Symbol × Nat))) (log : List Event)
    (h : Quiet log) : Quiet (search known moves log).log := by
  fun_induction search known moves log with
  | case1 _ _ _ _ _ ih => exact ih (h.append (quiet_visit _ _))
  | case2 => exact h

theorem quiet_analyse (g : Grammar) : Quiet g.analyse.2 := by
  have hcollection : Quiet g.collection.log :=
    quiet_search _ _ _ ((quiet_closureLog _).append (quiet_singleton rfl))
  exact ((quiet_ofPasses _ _).append (quiet_ofPasses _ _)).append hcollection

end Grammar

/-- What is logged behind the lines is never a warning. -/
theorem exists_log_read (strict : Bool) (text : String) :
    ∃ tail, Quiet tail ∧ (read strict text).log = (Reading.ofText strict text).log ++ tail := by
  rw [read]
  cases (Reading.ofText strict text).stopped with
  | some place => exact ⟨[], quiet_nil, (List.append_nil _).symm⟩
  | none =>
    cases Grammar.ofRules? (Reading.ofText strict text).rules with
    | none => exact ⟨[], quiet_nil, (List.append_nil _).symm⟩
    | some g =>
      have hdeclared : Quiet [.terminals g.terminals.toList, .nonterminals g.nonterminals.toList] :=
        (quiet_singleton rfl).append (quiet_singleton rfl)
      refine ⟨_, hdeclared.append g.quiet_analyse, ?_⟩
      dsimp only
      split <;> exact List.append_assoc _ _ _

theorem read_eq_noRules_iff {strict : Bool} {text : String} :
    (read strict text).result = .error .noRules ↔
      (Reading.ofText strict text).stopped = none ∧ (Reading.ofText strict text).rules = [] := by
  rw [read]
  cases (Reading.ofText strict text).stopped with
  | some place => simp
  | none =>
    cases hrules : (Reading.ofText strict text).rules with
    | nil => simp [Grammar.ofRules?]
    | cons r rest =>
      dsimp only [Grammar.ofRules?, List.head?_cons, Option.map_some]
      split <;> simp

/-- The log of reading an accepted text. -/
theorem log_of_read_eq_ok {strict : Bool} {text : String} {a : Analysed}
    (h : (read strict text).result = .ok a) :
    (read strict text).log = (Reading.ofText strict text).log ++
      [.terminals a.grammar.terminals.toList, .nonterminals a.grammar.nonterminals.toList] ++
        a.grammar.analyse.2 := by
  obtain ⟨hstopped, hg, -, hproblems⟩ := read_eq_ok_iff.mp h
  have hsound : ¬ (strict = true ∧ a.grammar.problems ≠ []) := fun ⟨hs, hne⟩ => hne (hproblems hs)
  rw [read]
  simp only [hstopped, hg, if_neg hsound]

end LRZero
