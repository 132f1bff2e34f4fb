import LRZero.Grammar.Problem
import LRZero.Proofs.DistinctItems
import LRZero.Proofs.LeastSets

/-!
# Declarations and spelling

A check that finds nothing says that the grammar is `Checked`: all symbols are
declared, none of them twice, and no terminal is spelled like a non-terminal.
The solvers and the closure ask only for the spelling.  The one thing that could
still set the two apart, a declared non-terminal that is spelled like a terminal,
the check does not look for.  Where the bodies are free of it, all that FIRST
and FOLLOW hold are declared terminals and marks, and a state holds the rules of
every declared non-terminal behind a dot; where a body begins with one, the FIRST
set of its rule has what is no terminal (`misspelled_mem_first`).

Main statement: `declared_of_checked`.
-/

namespace LRZero.Grammar

variable {g : Grammar}

/-! ## What the check says -/

/-- The declarations and the rules agree. -/
structure Checked (g : Grammar) : Prop where
  start : ∃ r ∈ g.rules, r.result = g.start
  result : ∀ r ∈ g.rules, r.result ∈ g.nonterminals
  body : ∀ r ∈ g.rules, ∀ x ∈ r.body, x ∈ g.terminals ∨ x ∈ g.nonterminals
  once : ∀ x ∈ g.terminals, x ∉ g.nonterminals
  produced : ∀ x ∈ g.nonterminals, ∃ r ∈ g.rules, r.result = x
  spelled : ∀ x ∈ g.terminals, ¬ x.isNonterminal

theorem rulesFor_eq_nil_iff {x : Symbol} : g.rulesFor x = [] ↔ ¬ ∃ r ∈ g.rules, r.result = x := by
  simp [rulesFor, List.filter_eq_nil_iff]

theorem ruleProblems_eq_nil_iff {r : Rule} : g.ruleProblems r = [] ↔
    r.result ∈ g.nonterminals ∧ ∀ x ∈ r.body, x ∈ g.terminals ∨ x ∈ g.nonterminals := by
  simp [ruleProblems, declares, or_iff_not_imp_left]

theorem declaredTwice_eq_empty_iff :
    g.declaredTwice = ∅ ↔ ∀ x ∈ g.terminals, x ∉ g.nonterminals := by
  simp [declaredTwice, SortedSet.ext_iff]

/-- The check finds nothing exactly in checked grammars. -/
theorem problems_eq_nil_iff : g.problems = [] ↔ g.Checked := by
  simp only [problems, List.append_eq_nil_iff, List.flatMap_eq_nil_iff, ruleProblems_eq_nil_iff,
    List.map_eq_nil_iff, SortedSet.filter, List.filter_eq_nil_iff, SortedSet.mem_toList,
    ite_eq_right_iff, ite_eq_left_iff, List.cons_ne_nil, imp_false, rulesFor_eq_nil_iff,
    declaredTwice_eq_empty_iff, decide_eq_true_eq, not_not]
  constructor
  · rintro ⟨⟨⟨⟨hstart, hrules⟩, honce⟩, hproduced⟩, hspelled⟩
    exact ⟨hstart, fun r hr => (hrules r hr).1, fun r hr => (hrules r hr).2, honce, hproduced, hspelled⟩
  · intro h
    exact ⟨⟨⟨⟨h.start, fun r hr => ⟨h.result r hr, h.body r hr⟩⟩, h.once⟩, h.produced⟩, h.spelled⟩

/-! ## What is not looked for -/

/-- In the bodies, declared non-terminals are spelled like non-terminals. -/
def SpelledAsDeclared (g : Grammar) : Prop :=
  ∀ r ∈ g.rules, ∀ x ∈ r.body, x ∈ g.nonterminals → x.isNonterminal

instance (g : Grammar) : Decidable g.SpelledAsDeclared :=
  inferInstanceAs (Decidable (∀ _ ∈ _, ∀ _ ∈ _, _ → _))

theorem Checked.mem_terminals (h : g.Checked) (hspelled : g.SpelledAsDeclared) {r : Rule}
    {x : Symbol} (hr : r ∈ g.rules) (hx : x ∈ r.body) (hn : ¬ x.isNonterminal) :
    x ∈ g.terminals :=
  (h.body r hr x hx).resolve_right fun hdeclared => hn (hspelled r hr x hx hdeclared)

/-- A body that begins with a declared non-terminal spelled like a terminal
puts it into the FIRST set. -/
theorem Checked.misspelled_mem_first (h : g.Checked) {r : Rule} {x : Symbol} {rest : List Symbol}
    (hr : r ∈ g.rules) (hbody : r.body = x :: rest) (hx : x ∈ g.nonterminals)
    (hn : ¬ x.isNonterminal) :
    ∃ s, g.first.find r.result = .ok s ∧ some x ∈ s ∧ x ∉ g.terminals := by
  refine ⟨_, Inclusion.find_eq_ok (mem_keys_first.mpr ⟨r, hr, rfl⟩), ?_, fun hx' => h.once x hx' hx⟩
  exact mem_first.mpr (.terminal hr hbody hn rfl)

/-! ## The sets -/

/-- A symbol in a FIRST set stands in a body and is spelled like a terminal. -/
theorem Leads.exists_body {x y : Symbol} (h : g.Leads (some y) x) :
    ∃ r ∈ g.rules, y ∈ r.body ∧ ¬ y.isNonterminal := by
  induction h with
  | empty _ _ ha => cases ha
  | @terminal r _ rest hr hbody hy ha =>
    cases ha
    exact ⟨r, hr, hbody ▸ List.mem_cons_self, hy⟩
  | nonterminal _ _ _ _ ih => exact ih

/-- A symbol in a FOLLOW set is the mark of the end, or it stands in a body and
is spelled like a terminal. -/
theorem Follows.exists_body {x y : Symbol} (h : g.Follows (some y) x) :
    y = Symbol.endMark ∨ ∃ r ∈ g.rules, y ∈ r.body ∧ ¬ y.isNonterminal := by
  induction h with
  | start ha => exact .inl (Option.some.inj ha)
  | @next r x z α β hr hbody _ ha =>
    rcases mem_firstOfSymbol.mp ha with ⟨-, hleads⟩ | ⟨hz, ha⟩
    · exact .inr hleads.exists_body
    · cases ha
      have hmem : y ∈ r.body := by simp [hbody]
      exact .inr ⟨r, hr, hmem, hz⟩
  | last _ _ _ _ ih => exact ih

/-- FIRST, FOLLOW and the states go by the declarations in a grammar that a check
finds nothing in and whose bodies spell the declared non-terminals as such. -/
theorem declared_of_checked (g : Grammar) (h : g.problems = []) (hspelled : g.SpelledAsDeclared) :
    (∀ n s, g.first.find n = .ok s → ∀ a ∈ s, a = none ∨ ∃ x ∈ g.terminals, a = some x) ∧
    (∀ n s, g.follow.find n = .ok s → ∀ a ∈ s,
      a = none ∨ a = some Symbol.endMark ∨ ∃ x ∈ g.terminals, a = some x) ∧
    ∀ s ∈ g.collection.states, ∀ i ∈ s.items, ∀ x ∈ g.nonterminals, i.next? = some x →
      ∀ r ∈ g.rulesFor x, s.holds (.ofRule r) := by
  have hchecked := problems_eq_nil_iff.mp h
  have hterminal : ∀ {y}, (∃ r ∈ g.rules, y ∈ r.body ∧ ¬ y.isNonterminal) → y ∈ g.terminals := by
    rintro y ⟨r, hr, hy, hn⟩
    exact hchecked.mem_terminals hspelled hr hy hn
  refine ⟨?_, ?_, ?_⟩
  · intro n s hs a ha
    obtain ⟨-, rfl⟩ := SetTable.find_eq_ok_iff.mp hs
    cases a with
    | none => exact .inl rfl
    | some y => exact .inr ⟨y, hterminal (mem_first.mp ha).exists_body, rfl⟩
  · intro n s hs a ha
    obtain ⟨-, rfl⟩ := SetTable.find_eq_ok_iff.mp hs
    cases a with
    | none => exact .inl rfl
    | some y =>
      rcases (mem_follow.mp ha).exists_body with rfl | hbody
      · exact .inr (.inl rfl)
      · exact .inr (.inr ⟨y, hterminal hbody, rfl⟩)
  -- the symbol behind the dot stands in a body, so the closure sees that it is a non-terminal
  · intro s hs i hi x hx hnext r hr
    obtain ⟨r', hr', n, -, rfl⟩ := mem_items.mp (within_collection s hs i hi)
    have hbody : x ∈ r'.body := by
      rw [Item.next?_ofRuleAt] at hnext
      exact List.mem_of_getElem? hnext
    have hnonterminal := Item.nonterminal?_eq_some.mpr ⟨hnext, hspelled r' hr' x hbody hx⟩
    obtain ⟨j, hj, htext⟩ := closed_collection s hs _ hi x hnonterminal r hr
    exact State.holds_iff.mpr (List.mem_map.mpr ⟨j, hj, htext⟩)

/-- A sum begins with declared terminals, and state 0 has the rules of the
non-terminals behind its dots. -/
theorem declared_of_checked_sums :
    sums.problems = [] ∧ sums.SpelledAsDeclared ∧
      (∃ s, sums.first.find "EXPR" = .ok s ∧ ∀ a ∈ s, a = none ∨ ∃ x ∈ sums.terminals, a = some x) ∧
      ∃ s ∈ sums.collection.states, ∀ r ∈ sums.rulesFor "TERM", s.holds (.ofRule r) := by
  have hclean : sums.problems = [] := by decide
  have hspelled : sums.SpelledAsDeclared := by decide
  obtain ⟨hfirst, -, hstates⟩ := declared_of_checked sums hclean hspelled
  have hexpr := Inclusion.find_eq_ok (mem_keys_first (g := sums).mpr ⟨⟨"EXPR", ["TERM"]⟩, by decide, rfl⟩)
  obtain ⟨_, hsearched, -, -⟩ := searched_collection sums
  have hzero := List.mem_of_getElem? hsearched.grown.start
  have hitem : Item.ofRule ⟨"EXPR", ["TERM"]⟩ ∈ sums.startState.items :=
    (prefix_closure ⟨0, sums.itemsFor "EXPR"⟩).subset (mem_itemsFor.mpr ⟨_, by decide, rfl, rfl⟩)
  exact ⟨hclean, hspelled, ⟨_, hexpr, hfirst _ _ hexpr⟩, _, hzero,
    hstates _ hzero _ hitem "TERM" (by decide) rfl⟩

/-- A list of one element, with a non-terminal in lower case. -/
def lowerCase : Grammar where
  start := "S"
  terminals := .ofList ["x"]
  nonterminals := .ofList ["S", "list"]
  rules := [⟨"S", ["list"]⟩, ⟨"list", ["x"]⟩]

/-- The check finds nothing wrong with a non-terminal in lower case, but it is
in a FIRST set, and state 0 has it behind a dot without its rule. -/
theorem lowerCase_unnoticed :
    lowerCase.problems = [] ∧
      (∃ s, lowerCase.first.find "S" = .ok s ∧ some "list" ∈ s ∧ "list" ∉ lowerCase.terminals) ∧
      ∃ s ∈ lowerCase.collection.states, ∃ i ∈ s.items, i.next? = some "list" ∧
        "list" ∈ lowerCase.nonterminals ∧ ∃ r ∈ lowerCase.rulesFor "list", ¬ s.holds (.ofRule r) := by
  have hclean : lowerCase.problems = [] := by decide
  have hstart : lowerCase.startState = ⟨0, [.ofRule ⟨"S", ["list"]⟩]⟩ := by
    have hterminal : ∀ i ∈ [Item.ofRule ⟨"S", ["list"]⟩], i.nonterminal? = none := by decide
    exact closure_of_terminals hterminal
  obtain ⟨_, hsearched, -, -⟩ := searched_collection lowerCase
  have hzero := List.mem_of_getElem? hsearched.grown.start
  rw [hstart] at hzero
  refine ⟨hclean, ?_, _, hzero, _, List.mem_cons_self, rfl, by decide, ⟨"list", ["x"]⟩, by decide, by decide⟩
  exact (problems_eq_nil_iff.mp hclean).misspelled_mem_first (r := ⟨"S", ["list"]⟩)
    List.mem_cons_self rfl (by decide) (by decide)

end LRZero.Grammar
