import LRZero.Proofs.CheckedGrammars
import LRZero.Proofs.LenientReading
import LRZero.Proofs.StrictReading

/-!
# Non-terminals without rules

A grammar that has been read declares the symbols of its rules by their spelling
and starts with the result of a rule.  So a check of it can find only one thing,
non-terminals that stand in bodies without a rule of their own
(`problems_ofRules?`), and for nothing else does strict reading refuse a text
with a header and without an unexpected line.  In what it accepts, the results,
the declared non-terminals and the keys of both tables are the same symbols.

Main statement: `strict_read_expected`.
-/

namespace LRZero

/-- A non-terminal that stands in a body and is the result of no rule. -/
def Unproduced (rules : List Rule) (x : Symbol) : Prop :=
  x.isNonterminal ∧ (∃ r ∈ rules, x ∈ r.body) ∧ ∀ r ∈ rules, r.result ≠ x

instance (rules : List Rule) (x : Symbol) : Decidable (Unproduced rules x) :=
  inferInstanceAs (Decidable (_ ∧ (∃ _ ∈ rules, _) ∧ ∀ _ ∈ rules, _))

namespace Grammar

variable {g : Grammar} {rules : List Rule}

/-! ## What a check of a grammar finds that has been read -/

/-- The declared non-terminals without rules. -/
def missing (g : Grammar) : SortedSet Symbol := g.nonterminals.filter fun x => g.rulesFor x = []

theorem mem_usedSymbols {x : Symbol} :
    x ∈ usedSymbols rules ↔ ∃ r ∈ rules, x = r.result ∨ x ∈ r.body := by
  simp only [usedSymbols, List.mem_flatMap, List.mem_cons]

theorem mem_missing (hg : ofRules? rules = some g) {x : Symbol} :
    x ∈ g.missing ↔ Unproduced rules x := by
  obtain ⟨hrules, -, -, hnonterminals⟩ := parts_of_ofRules? hg
  rw [missing, SortedSet.mem_filter, decide_eq_true_eq, rulesFor_eq_nil_iff, hnonterminals,
    mem_usedSymbols, hrules]
  constructor
  · rintro ⟨⟨⟨r, hr, hx⟩, hspelled⟩, hnone⟩
    have hresult : ∀ s ∈ rules, s.result ≠ x := fun s hs he => hnone ⟨s, hs, he⟩
    exact ⟨hspelled, ⟨r, hr, hx.resolve_left fun he => hresult r hr he.symm⟩, hresult⟩
  · rintro ⟨hspelled, ⟨r, hr, hx⟩, hresult⟩
    exact ⟨⟨⟨r, hr, .inr hx⟩, hspelled⟩, fun ⟨s, hs, he⟩ => hresult s hs he⟩

/-- Rules declared by their spelling can lack nothing but rules. -/
theorem problems_ofRules? (hg : ofRules? rules = some g)
    (hresult : ∀ r ∈ rules, r.result.isNonterminal) :
    g.problems = g.missing.toList.map .nonterminalWithoutRules := by
  obtain ⟨hrules, hstart, hterminals, hnonterminals⟩ := parts_of_ofRules? hg
  have hused : ∀ {r x}, r ∈ rules → x = r.result ∨ x ∈ r.body → x ∈ usedSymbols rules :=
    fun hr hx => mem_usedSymbols.mpr ⟨_, hr, hx⟩
  have hfirst : g.rulesFor g.start ≠ [] := by
    rw [ne_eq, rulesFor_eq_nil_iff, not_not, hrules]
    obtain ⟨r, hr, he⟩ := Option.map_eq_some_iff.mp hstart
    exact ⟨r, List.mem_of_head? hr, he⟩
  have hdeclared : g.rules.flatMap g.ruleProblems = [] := by
    rw [List.flatMap_eq_nil_iff, hrules]
    intro r hr
    refine ruleProblems_eq_nil_iff.mpr
      ⟨(hnonterminals _).mpr ⟨hused hr (.inl rfl), hresult r hr⟩, fun x hx => ?_⟩
    by_cases hspelled : x.isNonterminal
    · exact .inr ((hnonterminals x).mpr ⟨hused hr (.inr hx), hspelled⟩)
    · exact .inl ((hterminals x).mpr ⟨hused hr (.inr hx), hspelled⟩)
  have honce : g.declaredTwice = ∅ := declaredTwice_eq_empty_iff.mpr fun x hx hx' =>
    ((hterminals x).mp hx).2 ((hnonterminals x).mp hx').2
  have hspelled : (g.terminals.filter (·.isNonterminal)).toList = [] :=
    List.filter_eq_nil_iff.mpr fun x hx => ((hterminals x).mp hx).2
  rw [problems, if_neg hfirst, hdeclared, if_pos honce, hspelled, ← missing]
  simp

theorem spelledAsDeclared_ofRules? (hg : ofRules? rules = some g) : g.SpelledAsDeclared :=
  fun _ _ x _ hx => (((parts_of_ofRules? hg).2.2.2 x).mp hx).2

/-! ## Keys and members where nothing is missing -/

theorem Checked.mem_nonterminals_iff (h : g.Checked) {x : Symbol} :
    x ∈ g.nonterminals ↔ ∃ r ∈ g.rules, r.result = x :=
  ⟨h.produced x, fun ⟨r, hr, he⟩ => he ▸ h.result r hr⟩

/-- All keys of the FOLLOW table are results. -/
theorem Checked.mem_keys_follow_iff (h : g.Checked) {x : Symbol} :
    x ∈ g.follow.keys ↔ ∃ r ∈ g.rules, r.result = x := by
  rw [mem_keys_follow]
  constructor
  · rintro (hresult | hdeclared | ⟨hx, r, hr, hbody⟩ | rfl)
    · exact hresult
    · exact h.produced x hdeclared
    · exact h.produced x ((h.body r hr x hbody).resolve_left fun hterminal => h.spelled x hterminal hx)
    · exact h.start
  · exact .inl

/-- FIRST sets hold declared terminals and the mark of an empty body. -/
theorem Checked.mem_first_declared (h : g.Checked) (hspelled : g.SpelledAsDeclared) {n : Symbol}
    {s : SymbolSet} (hs : g.first.find n = .ok s) {a : Option Symbol} (ha : a ∈ s) :
    a = none ∨ ∃ x ∈ g.terminals, a = some x := by
  obtain ⟨-, rfl⟩ := SetTable.find_eq_ok_iff.mp hs
  cases a with
  | none => exact .inl rfl
  | some y =>
    obtain ⟨r, hr, hbody, hn⟩ := (mem_first.mp ha).exists_body
    exact .inr ⟨y, h.mem_terminals hspelled hr hbody hn, rfl⟩

/-- FOLLOW sets hold declared terminals and marks. -/
theorem Checked.mem_follow_declared (h : g.Checked) (hspelled : g.SpelledAsDeclared) {n : Symbol}
    {s : SymbolSet} (hs : g.follow.find n = .ok s) {a : Option Symbol} (ha : a ∈ s) :
    a = none ∨ a = some Symbol.endMark ∨ ∃ x ∈ g.terminals, a = some x := by
  obtain ⟨-, rfl⟩ := SetTable.find_eq_ok_iff.mp hs
  cases a with
  | none => exact .inl rfl
  | some y =>
    rcases (mem_follow.mp ha).exists_body with rfl | ⟨r, hr, hbody, hn⟩
    · exact .inr (.inl rfl)
    · exact .inr (.inr ⟨y, h.mem_terminals hspelled hr hbody hn, rfl⟩)

end Grammar

/-! ## Strict reading -/

/-- Without a warning, strict reading gets through the lines as lenient reading does. -/
theorem Reading.ofText_strict {text : String} (h : Quiet (ofText false text).log) :
    ofText true text = ofText false text := by
  rcases unstopped_or_stopsAt (Text.lines text) ⟨[], [], none⟩ 1 quiet_nil rfl with
    hsame | ⟨k, line, hstop⟩
  · exact hsame.same
  · have hnone : firstWarning? (ofText false text).log = none := firstWarning?_eq_none_iff.mpr h
    cases hnone.symm.trans hstop.warned

/-- Strict reading of lines that are all expected, with a header among them. -/
theorem result_read_expected {text : String}
    (hheader : ∃ line ∈ Text.lines text, (heading? line).isSome)
    (hexpected : collectLines warningBehind? (Text.lines text) = []) :
    ∃ g, Grammar.ofRules? (collectLines ruleBehind? (Text.lines text)) = some g ∧
      (∀ r ∈ collectLines ruleBehind? (Text.lines text), r.Readable) ∧
      (read true text).result =
        if g.problems ≠ [] then .error (.problems g.problems) else .ok ⟨g, g.analysis⟩ := by
  have haccounted := accounted_lines text
  have hquiet : Quiet (Reading.ofText false text).log := by
    rw [← warnings_eq_nil_iff, haccounted.warned, hexpected]
  have hsame := Reading.ofText_strict hquiet
  have hne : (Reading.ofText false text).rules ≠ [] := fun hnil =>
    exists_heading?_iff.mp hheader ((rules_eq_nil_iff text).mp hnil)
  obtain ⟨g, hg⟩ := Grammar.exists_ofRules? hne
  rw [← haccounted.rules]
  refine ⟨g, hg, Reading.readable_of_mem_ofText, ?_⟩
  rw [result_read (by rw [hsame]; exact haccounted.stopped) (by rw [hsame]; exact hg)]
  simp only [true_and]

/-- Where all lines are expected and there is a header, strict reading refuses
exactly the texts with a non-terminal in a body that no line is about, and names
all of these in order.  In a grammar that it accepts, the results, the declared
non-terminals and the keys of FIRST and FOLLOW are the same, and the sets hold
declared terminals and marks.  No other problem is ever found in a grammar that
has been read. -/
theorem strict_read_expected :
    (∀ text : String, (∃ line ∈ Text.lines text, (heading? line).isSome) →
      collectLines warningBehind? (Text.lines text) = [] →
      ((∃ e, (read true text).result = .error e) ↔
        ∃ x, Unproduced (collectLines ruleBehind? (Text.lines text)) x) ∧
      (∀ e, (read true text).result = .error e →
        ∃ xs : List Symbol, xs.Pairwise (· < ·) ∧
          (∀ x, x ∈ xs ↔ Unproduced (collectLines ruleBehind? (Text.lines text)) x) ∧
          e.message = "; ".intercalate (xs.map fun x => "Non-terminal '" ++ x ++ "' has no rules") ∧
          e.place? = none) ∧
      ∀ a, (read true text).result = .ok a →
        a.grammar.rules = collectLines ruleBehind? (Text.lines text) ∧
        (∀ x, x ∈ a.analysis.first.keys ↔ ∃ r ∈ a.grammar.rules, r.result = x) ∧
        (∀ x, x ∈ a.analysis.follow.keys ↔ ∃ r ∈ a.grammar.rules, r.result = x) ∧
        (∀ x, x ∈ a.grammar.nonterminals ↔ ∃ r ∈ a.grammar.rules, r.result = x) ∧
        (∀ n s, a.analysis.first.find n = .ok s → ∀ b ∈ s,
          b = none ∨ ∃ x ∈ a.grammar.terminals, b = some x) ∧
        ∀ n s, a.analysis.follow.find n = .ok s → ∀ b ∈ s,
          b = none ∨ b = some Symbol.endMark ∨ ∃ x ∈ a.grammar.terminals, b = some x) ∧
    ∀ strict text a, (read strict text).result = .ok a →
      ∀ p ∈ a.grammar.problems, ∃ x, p = .nonterminalWithoutRules x := by
  constructor
  · intro text hheader hexpected
    obtain ⟨g, hg, hreadable, hresult⟩ := result_read_expected hheader hexpected
    have hproblems := Grammar.problems_ofRules? hg fun r hr => (hreadable r hr).isNonterminal
    have hclean : g.problems = [] ↔
        ¬ ∃ x, Unproduced (collectLines ruleBehind? (Text.lines text)) x := by
      rw [hproblems, List.map_eq_nil_iff, List.eq_nil_iff_forall_not_mem, not_exists]
      exact forall_congr' fun x => not_congr (Grammar.mem_missing hg)
    rw [hresult]
    refine ⟨?_, ?_, ?_⟩
    · rw [← not_iff_not, ← hclean]
      split
      · next hne => simp [hne]
      · next hnil => simp [not_not.mp hnil]
    · intro e he
      split at he
      · cases he
        refine ⟨g.missing.toList, ?_, fun x => Grammar.mem_missing hg, ?_, rfl⟩
        · exact g.missing.sorted.imp compareOfLessAndEq_eq_lt.mp
        · rw [hproblems]
          show "; ".intercalate _ = _
          rw [List.map_map]
          rfl
      · cases he
    · intro a ha
      split at ha
      · cases ha
      · next hnil =>
        cases ha
        have hchecked := Grammar.problems_eq_nil_iff.mp (not_not.mp hnil)
        have hspelled := Grammar.spelledAsDeclared_ofRules? hg
        exact ⟨(Grammar.parts_of_ofRules? hg).1, fun x => Grammar.mem_keys_first,
          fun x => hchecked.mem_keys_follow_iff, fun x => hchecked.mem_nonterminals_iff,
          fun n s hs b => hchecked.mem_first_declared hspelled hs,
          fun n s hs b => hchecked.mem_follow_declared hspelled hs⟩
  · intro strict text a h
    obtain ⟨-, hg, -, -⟩ := read_eq_ok_iff.mp h
    rw [Grammar.problems_ofRules? hg fun r hr => (Reading.readable_of_mem_ofText r hr).isNonterminal]
    intro p hp
    obtain ⟨x, -, rfl⟩ := List.mem_map.mp hp
    exact ⟨x, rfl⟩

/-- An alternative names a non-terminal that no line is about. -/
def danglingLines : String := "A : a A\n\n| B A\n| b"

/-- Strict reading refuses the text for its non-terminal, and no line is to blame. -/
theorem strict_read_expected_dangling :
    (∃ line ∈ Text.lines danglingLines, (heading? line).isSome) ∧
      collectLines warningBehind? (Text.lines danglingLines) = [] ∧
      ∃ e, (read true danglingLines).result = .error e ∧ e.place? = none := by
  have hheader : ∃ line ∈ Text.lines danglingLines, (heading? line).isSome := by decide +kernel
  have hexpected : collectLines warningBehind? (Text.lines danglingLines) = [] := by decide +kernel
  have hmissing : Unproduced (collectLines ruleBehind? (Text.lines danglingLines)) "B" := by
    decide +kernel
  obtain ⟨hrefused, hmessage, -⟩ := strict_read_expected.1 danglingLines hheader hexpected
  obtain ⟨e, he⟩ := hrefused.mpr ⟨"B", hmissing⟩
  obtain ⟨_, -, -, -, hplace⟩ := hmessage e he
  exact ⟨hheader, hexpected, e, he, hplace⟩

end LRZero
