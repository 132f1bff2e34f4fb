import Mathlib.Data.List.Nodup
import Mathlib.Data.List.Perm.Subperm
import LRZero.Proofs.RoundTrip

/-!
# No item twice in a state

States are compared by their numbers of items and by membership one way, which
compares the sets of items as long as neither state has an item twice
(`State.same_iff_key_eq`).  Additions leave out what is there already, so a
closure has no item twice unless its kernel has, and a goto never has.  State 0
begins with one item for each rule of the start symbol, hence has an item twice
exactly if the start symbol has a rule twice.

Main statement: `same_iff_number_eq`, and `same_repeated_rule` for a start
symbol with a repeated rule.
-/

namespace LRZero

namespace State

variable {s t : State}

theorem same_iff : s.same t ↔ s.texts.length = t.texts.length ∧ ∀ x ∈ s.texts, x ∈ t.texts := by
  rw [same, Bool.and_eq_true, decide_eq_true_eq, List.all_eq_true, texts, texts, List.length_map,
    List.length_map]
  simp only [holds_iff, List.forall_mem_map]
  rfl

theorem key_eq_iff : s.key = t.key ↔ ∀ x, x ∈ s.texts ↔ x ∈ t.texts := by
  rw [SortedSet.ext_iff]
  simp only [key, SortedSet.mem_ofList]

/-- Without repeated items equality is that of the sets of items. -/
theorem same_iff_key_eq (hs : s.texts.Nodup) (ht : t.texts.Nodup) : s.same t ↔ s.key = t.key := by
  rw [same_iff, key_eq_iff]
  constructor
  · rintro ⟨hlength, hsub⟩ x
    have hperm : s.texts.Perm t.texts :=
      (List.subperm_of_subset hs hsub).perm_of_length_le (Nat.le_of_eq hlength.symm)
    exact hperm.mem_iff
  · intro h
    have hperm : s.texts.Perm t.texts := (List.perm_ext_iff_of_nodup hs ht).mpr h
    exact ⟨hperm.length_eq, fun x hx => (h x).mp hx⟩

end State

/-! ## Additions -/

theorem not_mem_of_mem_fresh {seen : List String} {l : List Item} {i : Item}
    (h : i ∈ Item.fresh seen l) : i.text ∉ seen := by
  induction l generalizing seen with
  | nil => exact absurd h List.not_mem_nil
  | cons j l ih =>
    rw [Item.fresh] at h
    split at h
    · exact ih h
    · next hj =>
      rcases List.mem_cons.mp h with rfl | h
      · exact hj
      · exact fun hmem => ih h (List.mem_cons_of_mem _ hmem)

theorem nodup_fresh (seen : List String) (l : List Item) :
    ((Item.fresh seen l).map (·.text)).Nodup := by
  induction l generalizing seen with
  | nil => exact .nil
  | cons j l ih =>
    rw [Item.fresh]
    split
    · exact ih seen
    · refine List.nodup_cons.mpr ⟨fun hmem => ?_, ih _⟩
      obtain ⟨i, hi, he⟩ := List.mem_map.mp hmem
      exact not_mem_of_mem_fresh hi (he ▸ List.mem_cons_self)

namespace Grammar

variable {g : Grammar}

theorem nodup_append_newItems {items : List Item} (h : (items.map (·.text)).Nodup) (x : Symbol) :
    ((items ++ g.newItems items x).map (·.text)).Nodup := by
  rw [List.map_append]
  refine List.nodup_append.mpr ⟨h, nodup_fresh _ _, fun u hu v hv he => ?_⟩
  obtain ⟨i, hi, rfl⟩ := List.mem_map.mp hv
  exact not_mem_of_mem_fresh hi (he ▸ hu)

theorem nodup_sweep (pending items : List Item) (expanded : List Symbol)
    (h : (items.map (·.text)).Nodup) :
    ((g.sweep pending items expanded).items.map (·.text)).Nodup := by
  fun_induction sweep g pending items expanded with
  | case1 => exact h
  | case2 _ _ _ _ _ ih => exact ih h
  | case3 _ _ _ _ _ _ _ ih => exact ih h
  | case4 _ _ _ _ _ _ _ ih => exact ih (nodup_append_newItems h _)

/-- A closure repeats only what its kernel repeats. -/
theorem nodup_closure {s : State} : (g.closure s).texts.Nodup ↔ s.texts.Nodup := by
  constructor
  · exact fun h => h.sublist ((prefix_closure s).sublist.map Item.text)
  · exact nodup_sweep s.items s.items []

theorem nodup_goto (s : State) (x : Symbol) (n : Int) : (g.goto s x n).texts.Nodup :=
  nodup_closure.mpr (nodup_fresh [] _)

/-! ## The first state -/

theorem nodup_startState (hg : ∀ r ∈ g.rules, r.Spaceless) :
    g.startState.texts.Nodup ↔ (g.rulesFor g.start).Nodup := by
  have htexts : State.texts ⟨0, g.itemsFor g.start⟩ =
      (g.rulesFor g.start).map fun r => (Item.ofRule r).text := by
    rw [State.texts, itemsFor, List.map_map]
    rfl
  rw [startState, nodup_closure, htexts]
  refine ⟨List.Nodup.of_map _, List.Nodup.map_on fun r hr s hs he => ?_⟩
  exact Item.text_ofRule_inj (hg r (mem_rulesFor.mp hr).1) (hg s (mem_rulesFor.mp hs).1) he

/-! ## The collection -/

theorem nodup_texts_iff (hg : ∀ r ∈ g.rules, r.Spaceless) {s : State}
    (hs : s ∈ g.collection.states) :
    s.texts.Nodup ↔ (s.number = 0 → (g.rulesFor g.start).Nodup) := by
  obtain ⟨_, hsearched, -, -⟩ := searched_collection g
  obtain ⟨i, hi⟩ := List.mem_iff_getElem?.mp hs
  rw [hsearched.grown.number i s hi]
  rcases Nat.eq_zero_or_pos i with rfl | hpos
  · cases hsearched.grown.start.symm.trans hi
    rw [nodup_startState hg]
    exact ⟨fun h _ => h, fun h => h rfl⟩
  · obtain ⟨j, t, x, -, -, -, rfl⟩ := hsearched.grown.origin i s hi hpos
    refine ⟨fun _ h => ?_, fun _ => nodup_goto t x i⟩
    omega

theorem key_eq_iff_number_eq {p q : State} (hp : p ∈ g.collection.states)
    (hq : q ∈ g.collection.states) : p.key = q.key ↔ p.number = q.number := by
  obtain ⟨_, hsearched, -, -⟩ := searched_collection g
  obtain ⟨i, hi⟩ := List.mem_iff_getElem?.mp hp
  obtain ⟨j, hj⟩ := List.mem_iff_getElem?.mp hq
  rw [hsearched.grown.number i p hi, hsearched.grown.number j q hj]
  constructor
  · intro h
    rw [index_eq_of_key_eq hi hj h]
  · intro h
    obtain rfl := Int.ofNat_inj.mp h
    cases hi.symm.trans hj
    rfl

end Grammar

/-- In every grammar that is read from a text, a state has no item twice,
except state 0 where the start symbol has a rule twice.  Away from this one
exception two states are equal exactly if they are the same state, which their
keys tell as well, and it does not matter which of them is asked. -/
theorem same_iff_number_eq {strict : Bool} {text : String} {a : Analysed}
    (h : (read strict text).result = .ok a) :
    (∀ s ∈ a.analysis.states,
      s.texts.Nodup ↔ (s.number = 0 → (a.grammar.rulesFor a.grammar.start).Nodup)) ∧
    ∀ p ∈ a.analysis.states, ∀ q ∈ a.analysis.states,
      (p.number = 0 ∨ q.number = 0 → (a.grammar.rulesFor a.grammar.start).Nodup) →
        (p.same q ↔ p.number = q.number) ∧ (p.same q ↔ p.key = q.key) ∧
          (p.same q ↔ q.same p) := by
  have hg := spaceless_of_read h
  rw [(read_eq_ok_iff.mp h).2.2.1]
  refine ⟨fun s hs => Grammar.nodup_texts_iff hg hs, fun p hp q hq hstart => ?_⟩
  have hpn : p.texts.Nodup := (Grammar.nodup_texts_iff hg hp).mpr fun hzero => hstart (.inl hzero)
  have hqn : q.texts.Nodup := (Grammar.nodup_texts_iff hg hq).mpr fun hzero => hstart (.inr hzero)
  have hkey : p.same q ↔ p.key = q.key := State.same_iff_key_eq hpn hqn
  refine ⟨hkey.trans (Grammar.key_eq_iff_number_eq hp hq), hkey, hkey.trans ?_⟩
  rw [State.same_iff_key_eq hqn hpn, eq_comm]

/-- A rule that can be repeated, as its own only alternative. -/
def repeatRule : Rule := ⟨"A", ["a", "A"]⟩

/-- Without a repeated rule each state has its items once. -/
theorem same_iff_number_eq_once :
    ∃ a, (read false "A : a A").result = .ok a ∧
      (a.grammar.rulesFor a.grammar.start).Nodup ∧
      ∃ p, a.analysis.states[0]? = some p ∧ p.texts.Nodup ∧ p.same p := by
  have hreadable : ∀ r ∈ [repeatRule], r.Readable := by decide
  obtain ⟨g, hg, hread⟩ := exists_read_written (List.cons_ne_nil _ _) hreadable (written_texts none _)
  have hnodup : (g.rulesFor g.start).Nodup := by
    rw [Grammar.rulesFor_start hg]
    decide
  obtain ⟨hitems, hsame⟩ := same_iff_number_eq hread
  obtain ⟨_, hsearched, -, -⟩ := Grammar.searched_collection g
  have hzero : g.analysis.states[0]? = some g.startState := hsearched.grown.start
  have hmem := List.mem_of_getElem? hzero
  refine ⟨_, hread, hnodup, g.startState, hzero, (hitems _ hmem).mpr fun _ => hnodup, ?_⟩
  exact (hsame _ hmem _ hmem fun _ => hnodup).1.mpr rfl

def repeatGrammar : Grammar := ⟨"A", .ofList ["a"], .ofList ["A"], [repeatRule, repeatRule]⟩

def repeatItem (n : Nat) : Item := .ofRuleAt repeatRule n

theorem startState_repeatGrammar :
    repeatGrammar.startState = ⟨0, [repeatItem 0, repeatItem 0]⟩ := by
  have hterminal : ∀ i ∈ [repeatItem 0, repeatItem 0], i.nonterminal? = none := by decide
  exact Grammar.closure_of_terminals hterminal

/-- Behind the first symbol the rule comes in again, once. -/
theorem goto_repeatGrammar :
    repeatGrammar.goto ⟨0, [repeatItem 0, repeatItem 0]⟩ "a" 1 =
      ⟨1, [repeatItem 1, repeatItem 0]⟩ := by
  have hkernel : Grammar.kernel ⟨0, [repeatItem 0, repeatItem 0]⟩ "a" 1 = ⟨1, [repeatItem 1]⟩ := by
    decide
  have hnext : (repeatItem 1).nonterminal? = some "A" := by decide
  have hnew : repeatGrammar.newItems [repeatItem 1] "A" = [repeatItem 0] := by decide
  have hterminal : (repeatItem 0).nonterminal? = none := by decide
  rw [Grammar.goto, hkernel, Grammar.closure, Grammar.expansion, Grammar.sweep]
  simp only [hnext, List.not_mem_nil, if_false, hnew]
  rw [List.nil_append, Grammar.sweep_of_closed]
  · rfl
  · intro i hi x hx
    rw [List.mem_singleton.mp hi, hterminal] at hx
    cases hx

/-- With a repeated rule state 0 has an item twice.  It is equal to a state
that has more items, which is not equal to it. -/
theorem same_repeated_rule :
    ∃ a, (read false "A : a A\n| a A").result = .ok a ∧
      ∃ p q, a.analysis.states[0]? = some p ∧ a.analysis.states[1]? = some q ∧
        ¬ p.texts.Nodup ∧ p.same q ∧ ¬ q.same p ∧ p.number ≠ q.number := by
  have hreadable : ∀ r ∈ [repeatRule, repeatRule], r.Readable := by decide
  obtain ⟨g, hg, hread⟩ := exists_read_written (List.cons_ne_nil _ _) hreadable
    (.header (.alternative .done))
  have hrepeat : Grammar.ofRules? [repeatRule, repeatRule] = some repeatGrammar := by decide
  cases hg.symm.trans hrepeat
  have hfirst : repeatGrammar.startState.nextSymbols = ["a"] := by
    rw [startState_repeatGrammar]
    decide
  have haway : (repeatGrammar.goto repeatGrammar.startState "a" 1).key ≠
      repeatGrammar.startState.key := by
    rw [startState_repeatGrammar, goto_repeatGrammar]
    decide
  obtain ⟨_, hsearched, -, -⟩ := Grammar.searched_collection repeatGrammar
  have hzero := hsearched.grown.start
  obtain ⟨-, hone⟩ := Grammar.state_one hfirst haway
  rw [startState_repeatGrammar] at hzero
  rw [startState_repeatGrammar, goto_repeatGrammar] at hone
  refine ⟨_, hread, _, _, hzero, hone, ?_⟩
  decide

end LRZero
