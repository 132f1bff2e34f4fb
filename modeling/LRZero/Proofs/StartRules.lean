import LRZero.Proofs.RoundTrip
import LRZero.Proofs.ViablePrefix

/-!
# The automaton reads the rules of the start symbol

Along the body of a rule of the start symbol the table leads from state 0 to a
state with the completed item of the rule.  This needs the items of the rule to
be told from all others by their texts, since a state of the collection stands
for every state with the same texts: it holds for each rule that has not the
mark of the dot as a symbol inside its body, whatever the other rules are
(`walk_start_rule`), and may fail for a rule that has (`walk_start_rule_mark`).
-/

namespace LRZero

namespace Grammar

variable {g : Grammar} {r : Rule}

/-! ## Items with unmistakable texts -/

/-- A state that shows the text of an item of the rule has the item itself. -/
theorem mem_of_text_mem (hg : ∀ r ∈ g.rules, r.Spaceless) (hr : r ∈ g.rules)
    (hmark : ¬ MarkInside r.body) {n : Nat} (hn : n ≤ r.body.length) {s : State} (hs : g.Within s)
    (h : (Item.ofRuleAt r n).text ∈ s.key) : Item.ofRuleAt r n ∈ s.items := by
  obtain ⟨i, hi, htext⟩ := State.mem_key.mp h
  obtain ⟨r', hr', m, hm, rfl⟩ := mem_items.mp (hs i hi)
  have he : Item.ofRuleAt r n = Item.ofRuleAt r' m :=
    Item.eq_of_text_eq (hg r hr) (hg r' hr') (Item.inBody_ofRuleAt hn) (Item.inBody_ofRuleAt hm)
      hmark htext.symm
  rw [he]
  exact hi

/-! ## The walk along a rule -/

/-- One step: a state with the item before a symbol leads to one with the item
behind it. -/
theorem exists_step (hg : ∀ r ∈ g.rules, r.Spaceless) (hr : r ∈ g.rules)
    (hmark : ¬ MarkInside r.body) {n p : Nat} {s : State} {x : Symbol} (hx : r.body[n]? = some x)
    (hs : g.collection.states[p]? = some s) (hitem : Item.ofRuleAt r n ∈ s.items) :
    ∃ q t, g.collection.trace.cell? p x = some q ∧ g.collection.states[q]? = some t ∧
      Item.ofRuleAt r (n + 1 : Nat) ∈ t.items := by
  have hlt : n < r.body.length := (List.getElem?_eq_some_iff.mp hx).1
  have hnext : (Item.ofRuleAt r n).next? = some x := (Item.next?_ofRuleAt r n).trans hx
  obtain ⟨q, hq⟩ := (exists_cell?_iff hs).mpr ⟨_, hitem, hnext⟩
  obtain ⟨t, ht, hkey⟩ := leadsTo_of_cell? hs hq
  refine ⟨q, t, hq, ht, ?_⟩
  apply mem_of_text_mem hg hr hmark hlt (within_collection t (List.mem_of_getElem? ht))
  rw [hkey]
  exact text_mem_goto hitem hnext q

/-- The whole walk, by induction on the symbols that have been read. -/
theorem exists_walk_take (hg : ∀ r ∈ g.rules, r.Spaceless) (hr : r ∈ g.rulesFor g.start)
    (hmark : ¬ MarkInside r.body) :
    ∀ n ≤ r.body.length, ∃ q s, g.collection.trace.walk? 0 (r.body.take n) = some q ∧
      g.collection.states[q]? = some s ∧ Item.ofRuleAt r n ∈ s.items := by
  intro n
  induction n with
  | zero =>
    intro _
    obtain ⟨_, hsearched, -, -⟩ := searched_collection g
    refine ⟨0, g.startState, rfl, hsearched.grown.start, ?_⟩
    exact (prefix_closure ⟨0, g.itemsFor g.start⟩).subset (List.mem_map.mpr ⟨r, hr, rfl⟩)
  | succ n ih =>
    intro hn
    obtain ⟨p, s, hp, hs, hitem⟩ := ih (Nat.le_of_succ_le hn)
    have hx : r.body[n]? = some r.body[n] := List.getElem?_eq_getElem hn
    obtain ⟨q, t, hq, ht, hitem'⟩ := exists_step hg (mem_rulesFor.mp hr).1 hmark hx hs hitem
    refine ⟨q, t, ?_, ht, hitem'⟩
    rw [List.take_succ_eq_append_getElem hn, Trace.walk?_concat, hp]
    exact hq

/-! ## A mark inside a body -/

theorem nonterminal?_eq_none {i : Item} {x : Symbol} (hx : i.next? = some x)
    (h : x.isNonterminal = false) : i.nonterminal? = none := by
  rw [Item.nonterminal?, hx, Option.filter_some, h]
  rfl

/-- A goto to a single item that asks for a terminal. -/
theorem goto_of_shifted {s : State} {x : Symbol} {i : Item} (h : shifted s x = [i])
    (hi : i.nonterminal? = none) (n : Int) : g.goto s x n = ⟨n, [i]⟩ := by
  have hkernel : kernel s x n = ⟨n, [i]⟩ := by rw [kernel, h]
  rw [goto, hkernel]
  refine closure_of_terminals fun j hj => ?_
  rw [List.mem_singleton.mp hj]
  exact hi

/-- The rule with the mark of the dot between two other symbols. -/
def markRule : Rule := ⟨"A", ["a", Symbol.dotMark, "b"]⟩

def markItem (n : Nat) : Item := .ofRuleAt markRule n

theorem isNonterminal_dotMark : Symbol.dotMark.isNonterminal = false := by decide

theorem goto_markItem_zero (m n : Int) :
    g.goto ⟨m, [markItem 0]⟩ "a" n = ⟨n, [markItem 1]⟩ := by
  have hshifted : shifted ⟨m, [markItem 0]⟩ "a" = [markItem 1] := rfl
  exact goto_of_shifted hshifted (nonterminal?_eq_none (x := Symbol.dotMark) rfl isNonterminal_dotMark) n

theorem goto_markItem_one (m n : Int) :
    g.goto ⟨m, [markItem 1]⟩ Symbol.dotMark n = ⟨n, [markItem 2]⟩ := by
  have hshifted : shifted ⟨m, [markItem 1]⟩ Symbol.dotMark = [markItem 2] := rfl
  exact goto_of_shifted hshifted (nonterminal?_eq_none (x := "b") rfl (by decide)) n

section

variable (hrules : g.rulesFor g.start = [markRule])
include hrules

theorem startState_markRule : g.startState = ⟨0, [markItem 0]⟩ := by
  have hkernel : g.itemsFor g.start = [markItem 0] := by
    rw [itemsFor, hrules]
    rfl
  rw [startState, hkernel]
  refine closure_of_terminals fun i hi => ?_
  rw [List.mem_singleton.mp hi]
  exact nonterminal?_eq_none (x := "a") rfl (by decide)

/-- Before and behind the mark the item has the same text.  So state 1 leads
to itself over the mark, and never on over the last symbol. -/
theorem walk?_markRule : g.collection.trace.walk? 0 markRule.body = none := by
  have hstart := startState_markRule hrules
  have hfirst : g.startState.nextSymbols = ["a"] := by
    rw [hstart]
    decide
  have haway : (g.goto g.startState "a" 1).key ≠ g.startState.key := by
    rw [hstart, goto_markItem_zero]
    decide
  obtain ⟨hcell, hstate⟩ := state_one hfirst haway
  rw [hstart, goto_markItem_zero] at hstate
  cases hwalk : g.collection.trace.walk? 0 markRule.body with
  | none => rfl
  | some q =>
    obtain ⟨j, hj, hwalk⟩ := Option.bind_eq_some_iff.mp hwalk
    obtain ⟨k, hk, hwalk⟩ := Option.bind_eq_some_iff.mp hwalk
    obtain ⟨l, hl, -⟩ := Option.bind_eq_some_iff.mp hwalk
    cases hcell.symm.trans hj
    obtain ⟨t, ht, hkey⟩ := leadsTo_of_cell? hstate hk
    have htext : (markItem 1).text = (markItem 2).text :=
      @Item.text_ofRuleAt_mark "A" ["a"] ["b"] (List.cons_ne_nil _ _) (List.cons_ne_nil _ _)
    have hsame : t.key = State.key ⟨1, [markItem 1]⟩ := by
      rw [hkey, goto_markItem_one]
      exact congrArg (fun text => SortedSet.ofList [text]) htext.symm
    obtain rfl : k = 1 := index_eq_of_key_eq ht hstate hsame
    obtain ⟨i, hi, hnext⟩ := (exists_cell?_iff hstate).mp ⟨l, hl⟩
    rw [List.mem_singleton.mp hi] at hnext
    exact absurd hnext (by decide)

end

end Grammar

/-- In every grammar that is read from a text, a rule of the start symbol
without the mark of the dot inside its body leads from state 0 to a state with
its completed item. -/
theorem walk_start_rule {strict : Bool} {text : String} {a : Analysed}
    (h : (read strict text).result = .ok a) {r : Rule}
    (hr : r ∈ a.grammar.rulesFor a.grammar.start) (hmark : ¬ MarkInside r.body) :
    ∃ q s, a.analysis.trace.walk? 0 r.body = some q ∧ a.analysis.states[q]? = some s ∧
      Item.ofRuleAt r r.body.length ∈ s.items := by
  have hwalk :=
    Grammar.exists_walk_take (spaceless_of_read h) hr hmark r.body.length (Nat.le_refl _)
  rw [List.take_length] at hwalk
  rw [(read_eq_ok_iff.mp h).2.2.1]
  exact hwalk

/-- The first symbol of a body may be the mark of the dot, and another rule may
have the mark inside. -/
theorem walk_start_rule_marks :
    ∃ a, (read false "A : • a\nA : a • b").result = .ok a ∧
      ⟨"A", ["•", "a"]⟩ ∈ a.grammar.rulesFor a.grammar.start ∧ ¬ MarkInside ["•", "a"] ∧
      ∃ q s, a.analysis.trace.walk? 0 ["•", "a"] = some q ∧ a.analysis.states[q]? = some s ∧
        ⟨"A", ["•", "a"], 2⟩ ∈ s.items := by
  have hreadable : ∀ r ∈ [(⟨"A", ["•", "a"]⟩ : Rule), Grammar.markRule], r.Readable := by decide
  obtain ⟨g, hg, hread⟩ := exists_read_written (List.cons_ne_nil _ _) hreadable (written_texts none _)
  have hrule : (⟨"A", ["•", "a"]⟩ : Rule) ∈ g.rulesFor g.start := by
    rw [Grammar.rulesFor_start hg]
    decide
  have hmark : ¬ MarkInside ["•", "a"] := by decide
  exact ⟨_, hread, hrule, hmark, walk_start_rule hread hrule hmark⟩

/-- With the mark of the dot inside its body a rule of the start symbol may
not be read to its end. -/
theorem walk_start_rule_mark :
    ∃ a, (read false "A : a • b").result = .ok a ∧
      ⟨"A", ["a", "•", "b"]⟩ ∈ a.grammar.rulesFor a.grammar.start ∧
      a.analysis.trace.walk? 0 ["a", "•", "b"] = none := by
  have hreadable : ∀ r ∈ [Grammar.markRule], r.Readable := by decide
  obtain ⟨g, hg, hread⟩ := exists_read_written (List.cons_ne_nil _ _) hreadable (written_texts none _)
  have hrules : g.rulesFor g.start = [Grammar.markRule] := Grammar.rulesFor_start hg
  have hrule : Grammar.markRule ∈ g.rulesFor g.start := hrules ▸ List.mem_cons_self
  exact ⟨_, hread, hrule, Grammar.walk?_markRule hrules⟩

end LRZero
