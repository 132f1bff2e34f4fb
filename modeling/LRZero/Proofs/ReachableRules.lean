import LRZero.Proofs.Derivation
import LRZero.Proofs.LeastSolution
import LRZero.Proofs.ViablePrefix

/-!
# The automaton knows the reachable rules and no others

Which symbols the rules lead to can be computed: they are the keys that a mark
of the start symbol is handed on to, and passes solve that system like the ones
of FIRST and FOLLOW.  `reachablePart` keeps the rules that produce such symbols.

A grammar and its reachable part are built in step.  As long as all items come
from reachable rules, what stands behind a dot is reachable, the two grammars
have the same rules for it, and so every sweep, every goto and every visit comes
to the same.  The one difference is in the columns of the table, where symbols
that only unreachable rules mention have their empty cells.

Main statement: `collection_reachable`.
-/

namespace LRZero

namespace Trace

/-- Columns that no move goes by do not show in the transitions. -/
theorem transitions_filter {columns : List Symbol} {moves : List (List (Symbol × Nat))}
    {p : Symbol → Bool} (h : ∀ m ∈ moves, ∀ x j, m.lookup x = some j → p x) :
    (ofMoves (columns.filter p) moves).transitions = (ofMoves columns moves).transitions := by
  refine congrArg List.flatten (List.ext_getElem? fun i => ?_)
  rw [List.getElem?_mapIdx, List.getElem?_mapIdx]
  simp only [ofMoves, List.getElem?_map]
  cases hm : moves[i]? with
  | none => rfl
  | some m =>
    refine congrArg some ?_
    rw [rowTransitions_map ⟨columns.filter p, _⟩, rowTransitions_map ⟨columns, _⟩,
      List.filterMap_filter]
    refine List.filterMap_congr fun x _ => ?_
    cases hx : m.lookup x with
    | none => simp
    | some j => rw [if_pos (h m (List.mem_of_getElem? hm) x j hx)]

end Trace

namespace Grammar

variable {g : Grammar} {x : Symbol}

/-! ## Computing what is reachable -/

/-- Each non-terminal in a body has the mark when the result of the rule has it. -/
def reachSystem (g : Grammar) : List Inclusion :=
  g.rules.flatMap fun r => (r.body.filter (·.isNonterminal)).map fun x => ⟨x, .key r.result⟩

/-- A key for each symbol in a body and for the start symbol, which has the mark. -/
def reachKeys (g : Grammar) : SetTable :=
  (SetTable.ofKeys (g.start :: g.rules.flatMap (·.body))).absorb g.start {none}

theorem mem_reachSystem {source : Source} : ⟨x, source⟩ ∈ g.reachSystem ↔
    ∃ r ∈ g.rules, x ∈ r.body ∧ x.isNonterminal ∧ source = .key r.result := by
  simp only [reachSystem, List.mem_flatMap, List.mem_map, List.mem_filter, Inclusion.mk.injEq]
  constructor
  · rintro ⟨r, hr, _, ⟨hx, hn⟩, rfl, rfl⟩
    exact ⟨r, hr, hx, hn, rfl⟩
  · rintro ⟨r, hr, hx, hn, rfl⟩
    exact ⟨r, hr, x, ⟨hx, hn⟩, rfl, rfl⟩

theorem mem_keys_reachKeys : x ∈ g.reachKeys.keys ↔ x = g.start ∨ ∃ r ∈ g.rules, x ∈ r.body := by
  rw [reachKeys, SetTable.keys_absorb, SetTable.mem_keys_ofKeys, List.mem_cons, List.mem_flatMap]

theorem mem_get_reachKeys {a : Option Symbol} : a ∈ g.reachKeys.get x ↔ x = g.start ∧ a = none := by
  simp [reachKeys, SetTable.mem_get_absorb, SetTable.get_ofKeys]

theorem owed_iff_reachable : Inclusion.Owed g.reachSystem g.reachKeys none x ↔ g.Reachable x := by
  constructor
  · intro h
    induction h with
    | held h =>
      obtain ⟨rfl, -⟩ := mem_get_reachKeys.mp h
      exact .start
    | given h =>
      obtain ⟨_, _, _, _, hsource⟩ := mem_reachSystem.mp h
      cases hsource
    | handed h _ _ ih =>
      obtain ⟨r, hr, hx, hn, hsource⟩ := mem_reachSystem.mp h
      cases hsource
      exact .body hr ih hx hn
  · intro h
    induction h with
    | start => exact .held (mem_get_reachKeys.mpr ⟨rfl, rfl⟩)
    | @body r x hr _ hx hn ih =>
      have hstep : ⟨x, .key r.result⟩ ∈ g.reachSystem := mem_reachSystem.mpr ⟨r, hr, hx, hn, rfl⟩
      exact .handed hstep (mem_keys_reachKeys.mpr (.inr ⟨r, hr, hx⟩)) ih

instance (g : Grammar) : DecidablePred g.Reachable := fun _ =>
  decidable_of_iff _ (Inclusion.mem_solution.trans owed_iff_reachable)

/-- The grammar without the rules of symbols that the start symbol does not lead to. -/
def reachablePart (g : Grammar) : Grammar :=
  { g with rules := g.rules.filter fun r => g.Reachable r.result }

theorem mem_rules_reachablePart {r : Rule} :
    r ∈ g.reachablePart.rules ↔ r ∈ g.rules ∧ g.Reachable r.result := by
  rw [reachablePart, List.mem_filter, decide_eq_true_eq]

theorem rulesFor_reachablePart (hx : g.Reachable x) :
    g.reachablePart.rulesFor x = g.rulesFor x := by
  rw [rulesFor, reachablePart, List.filter_filter]
  refine List.filter_congr fun r _ => ?_
  by_cases hr : r.result = x
  · simp [hr, hx]
  · simp [hr]

/-! ## Sweeps over the same items -/

/-- What stands behind a dot of a reachable rule is reachable. -/
theorem reachable_of_nonterminal? {i : Item} (hi : i ∈ g.reachablePart.items)
    (hx : i.nonterminal? = some x) : g.Reachable x := by
  obtain ⟨r, hr, n, -, rfl⟩ := mem_items.mp hi
  obtain ⟨hnext, hn⟩ := Item.nonterminal?_eq_some.mp hx
  rw [Item.next?_ofRuleAt] at hnext
  obtain ⟨hr, hresult⟩ := mem_rules_reachablePart.mp hr
  exact .body hr hresult (List.mem_of_getElem? hnext) hn

theorem itemsFor_reachablePart (hx : g.Reachable x) :
    g.reachablePart.itemsFor x = g.itemsFor x := by
  rw [itemsFor, rulesFor_reachablePart hx, itemsFor]

theorem sweep_reachablePart (pending items : List Item) (expanded : List Symbol)
    (h : ∀ i ∈ pending, i ∈ g.reachablePart.items) :
    g.reachablePart.sweep pending items expanded = g.sweep pending items expanded := by
  fun_induction sweep g.reachablePart pending items expanded with
  | case1 => rw [sweep]
  | case2 _ _ _ _ hx ih =>
    rw [sweep, hx]
    exact ih fun j hj => h j (List.mem_cons_of_mem _ hj)
  | case3 _ _ _ _ _ hx hmem ih =>
    rw [sweep, hx]
    dsimp only
    rw [if_pos hmem]
    exact ih fun j hj => h j (List.mem_cons_of_mem _ hj)
  -- what is expanded is reachable, so the same items come in
  | case4 items expanded i rest x hx hmem ih =>
    have hreach : g.Reachable x := reachable_of_nonterminal? (h i List.mem_cons_self) hx
    have hnew : g.reachablePart.newItems items x = g.newItems items x := by
      rw [newItems, itemsFor_reachablePart hreach, newItems]
    rw [sweep, hx]
    dsimp only
    rw [if_neg hmem, ← hnew]
    apply ih
    intro j hj
    rcases List.mem_append.mp hj with hj | hj
    · exact h j (List.mem_cons_of_mem _ hj)
    · exact itemsFor_subset (fresh_subset hj)

theorem Within.expansion_reachablePart {s : State} (hs : g.reachablePart.Within s) :
    g.reachablePart.expansion s.items = g.expansion s.items :=
  sweep_reachablePart s.items s.items [] hs

theorem Within.closure_reachablePart {s : State} (hs : g.reachablePart.Within s) :
    g.reachablePart.closure s = g.closure s := by
  rw [closure, hs.expansion_reachablePart, closure]

theorem Within.closureLog_reachablePart {s : State} (hs : g.reachablePart.Within s) :
    g.reachablePart.closureLog s = g.closureLog s := by
  rw [closureLog, hs.expansion_reachablePart, closureLog]

theorem Within.goto_reachablePart {s : State} (hs : g.reachablePart.Within s) (x : Symbol) (n : Int) :
    g.reachablePart.goto s x n = g.goto s x n :=
  (kernel_within hs x n).closure_reachablePart

/-! ## The search in step -/

theorem Within.ofPart {s : State} (hs : g.reachablePart.Within s) : g.Within s := by
  intro i hi
  obtain ⟨r, hr, n, hn, rfl⟩ := mem_items.mp (hs i hi)
  exact mem_items.mpr ⟨r, (mem_rules_reachablePart.mp hr).1, n, hn, rfl⟩

/-- States known of the reachable part, as states of the grammar. -/
def Known.ofPart (known : Known g.reachablePart) : Known g :=
  ⟨known.states, known.keys, known.keys_eq, fun s hs => (known.within s hs).ofPart⟩

/-- A visit in the reachable part, as a visit in the grammar. -/
def Visit.ofPart (v : Visit g.reachablePart) : Visit g := ⟨v.known.ofPart, v.moves, v.log⟩

theorem Known.push_ofPart (known : Known g.reachablePart) {s t : State}
    (hs : g.reachablePart.Within s) (ht : g.Within t) (h : s = t) :
    known.ofPart.push t ht = (known.push s hs).ofPart := by
  subst h
  rfl

theorem Visit.follow_ofPart {s : State} (hs : g.reachablePart.Within s)
    (v : Visit g.reachablePart) (x : Symbol) :
    v.ofPart.follow s hs.ofPart x = (v.follow s hs x).ofPart := by
  have hgoto := hs.goto_reachablePart x v.known.states.length
  have hlog := (kernel_within hs x v.known.states.length).closureLog_reachablePart
  cases hn : v.known.keys.idxOf? (g.goto s x v.known.states.length).key with
  | some n =>
    rw [follow_of_known (v := v.ofPart) hs.ofPart hn, follow_of_known hs (hgoto ▸ hn), hlog]
    rfl
  | none =>
    rw [follow_of_new (v := v.ofPart) hs.ofPart hn, follow_of_new hs (hgoto ▸ hn), hlog]
    exact congrArg (fun known => (⟨known, _, _⟩ : Visit g))
      (v.known.push_ofPart (goto_within hs x _) _ hgoto)

theorem visit_ofPart (known : Known g.reachablePart) {s : State} (hs : g.reachablePart.Within s) :
    visit known.ofPart s hs.ofPart = (visit known s hs).ofPart :=
  @List.foldl_hom _ _ _ Visit.ofPart _ _ s.nextSymbols ⟨known, [], []⟩
    fun v x => v.follow_ofPart hs x

theorem search_ofPart (known : Known g.reachablePart) (moves : List (List (Symbol × Nat)))
    (log : List Event) : search known.ofPart moves log = search known moves log := by
  fun_induction search known moves log with
  | case1 known moves log hlt v ih =>
    have hlt' : moves.length < known.ofPart.states.length := hlt
    have hv : visit known.ofPart known.ofPart.states[moves.length]
        (known.ofPart.within _ (List.getElem_mem hlt')) = v.ofPart := visit_ofPart known _
    rw [search, dif_pos hlt', hv]
    exact ih
  | case2 known moves log hlt =>
    have hlt' : ¬ moves.length < known.ofPart.states.length := hlt
    rw [search, dif_neg hlt']
    rfl

theorem within_startItems (g : Grammar) :
    g.reachablePart.Within ⟨0, g.reachablePart.itemsFor g.start⟩ := fun _ => itemsFor_subset

theorem Known.start_ofPart (g : Grammar) : (Known.start g.reachablePart).ofPart = Known.start g := by
  have hitems : g.reachablePart.itemsFor g.start = g.itemsFor g.start :=
    itemsFor_reachablePart .start
  have hstart : g.reachablePart.startState = g.startState := by
    rw [startState, startState, ← hitems]
    exact (within_startItems g).closure_reachablePart
  simp only [Known.ofPart, Known.start, hstart]

/-! ## The collections -/

/-- One search serves both grammars; their tables show its moves, each in the
columns of its own symbols. -/
theorem exists_common_search (g : Grammar) :
    ∃ moves, g.reachablePart.Searched g.reachablePart.collection.states moves ∧
      g.reachablePart.collection.states = g.collection.states ∧
      g.reachablePart.collection.trace = .ofMoves g.reachablePart.symbols.toList moves ∧
      g.collection.trace = .ofMoves g.symbols.toList moves := by
  have hlog : g.reachablePart.closureLog ⟨0, g.reachablePart.itemsFor g.start⟩ =
      g.closureLog ⟨0, g.itemsFor g.start⟩ := by
    rw [(within_startItems g).closureLog_reachablePart, itemsFor_reachablePart .start]
  have hsame : search (Known.start g.reachablePart) []
        (g.reachablePart.closureLog ⟨0, g.reachablePart.itemsFor g.start⟩ ++ [.newState 0]) =
      search (Known.start g) [] (g.closureLog ⟨0, g.itemsFor g.start⟩ ++ [.newState 0]) := by
    rw [hlog, ← Known.start_ofPart g, search_ofPart]
  refine ⟨_, (searched_search _ [] _ (searched_start g.reachablePart)).1, ?_, rfl, ?_⟩
  · exact congrArg Search.states hsame
  · exact congrArg (fun found => Trace.ofMoves g.symbols.toList found.moves) hsame.symm

theorem symbols_reachablePart (g : Grammar) :
    g.reachablePart.symbols = g.symbols.filter (· ∈ g.reachablePart.symbols) := by
  apply SortedSet.ext
  intro x
  simp only [SortedSet.mem_filter, decide_eq_true_eq, iff_and_self]
  intro hx
  simp only [symbols, SortedSet.mem_union, SortedSet.mem_ofList, List.mem_flatMap] at hx ⊢
  refine hx.imp_right ?_
  rintro ⟨r, hr, hx⟩
  exact ⟨r, (mem_rules_reachablePart.mp hr).1, hx⟩

/-! ## The items of the states -/

theorem Reachable.exists_spine {x : Symbol} (h : g.Reachable x) : ∃ δ, g.Spine x δ := by
  induction h with
  | start => exact ⟨[], .start⟩
  | body hr _ hx hn ih =>
    obtain ⟨δ, hδ⟩ := ih
    obtain ⟨α, β, hbody⟩ := List.append_of_mem hx
    exact ⟨δ ++ α, hδ.step hr hbody hn⟩

/-- In a grammar of plain symbols each item of a reachable rule is valid for
some sequence, and so it is in the state that the sequence leads to. -/
theorem exists_state_of_reachable (hg : g.Plain) {r : Rule} (hr : r ∈ g.rules)
    (hresult : g.Reachable r.result) {n : Nat} (hn : n ≤ r.body.length) :
    ∃ s ∈ g.collection.states, Item.ofRuleAt r n ∈ s.items := by
  obtain ⟨δ, hδ⟩ := hresult.exists_spine
  have hvalid : g.Valid (δ ++ r.body.take n) (.ofRuleAt r n) := by
    refine ⟨r, r.body.take n, r.body.drop n, δ, hr, ?_, ?_, hδ, rfl⟩
    · rw [List.take_append_drop]
    · rw [List.length_take, Nat.min_eq_left hn]
  obtain ⟨q, hq⟩ := exists_walk? hg _ ⟨_, hvalid⟩
  obtain ⟨s, hs, hitems⟩ := mem_of_walk? hg _ q hq
  exact ⟨s, List.mem_of_getElem? hs, (hitems _).mpr hvalid⟩

/-- The canonical collection and the reachable rules.  In a grammar of plain
symbols the items of the states are those of the reachable rules, with the dot
at every place.  The other rules may be left out of any grammar: states and
transitions stay what they are. -/
theorem collection_reachable (g : Grammar) :
    (g.Plain → ∀ i, (∃ s ∈ g.collection.states, i ∈ s.items) ↔
      ∃ r ∈ g.rules, g.Reachable r.result ∧ ∃ n : Nat, n ≤ r.body.length ∧ i = .ofRuleAt r n) ∧
    g.reachablePart.collection.states = g.collection.states ∧
    g.reachablePart.collection.trace.transitions = g.collection.trace.transitions := by
  obtain ⟨moves, hsearched, hstates, hpart, htrace⟩ := exists_common_search g
  refine ⟨fun hg i => ⟨?_, ?_⟩, hstates, ?_⟩
  · rintro ⟨s, hs, hi⟩
    obtain ⟨r, hr, n, hn, rfl⟩ := mem_items.mp (hsearched.within s (hstates ▸ hs) i hi)
    obtain ⟨hr, hresult⟩ := mem_rules_reachablePart.mp hr
    exact ⟨r, hr, hresult, n, hn, rfl⟩
  · rintro ⟨r, hr, hresult, n, hn, rfl⟩
    exact exists_state_of_reachable hg hr hresult hn
  · rw [hpart, htrace, symbols_reachablePart]
    refine Trace.transitions_filter fun m hm x j hx => ?_
    exact decide_eq_true (hsearched.mem_symbols hm (mem_of_lookup hx))

/-- Sums, and products that no sum leads to. -/
def sumsAndProducts : Grammar :=
  { sums with
    nonterminals := .ofList ["EXPR", "TERM", "FACTOR"]
    rules := sums.rules ++ [⟨"FACTOR", ["FACTOR", "*", "TERM"]⟩] }

/-- The states show what is behind an identifier but nothing of products, which
can be left out. -/
theorem collection_reachable_sums :
    sumsAndProducts.Plain ∧ sumsAndProducts.reachablePart.rules = sums.rules ∧
      (∃ s ∈ sumsAndProducts.collection.states, Item.ofRuleAt ⟨"TERM", ["id"]⟩ 1 ∈ s.items) ∧
      ¬ ∃ s ∈ sumsAndProducts.collection.states,
        Item.ofRule ⟨"FACTOR", ["FACTOR", "*", "TERM"]⟩ ∈ s.items := by
  have hplain : sumsAndProducts.Plain := by decide
  have hterm : sumsAndProducts.Reachable "TERM" := by decide +kernel
  have hfactor : ¬ sumsAndProducts.Reachable "FACTOR" := by decide +kernel
  obtain ⟨hitems, -, -⟩ := collection_reachable sumsAndProducts
  refine ⟨hplain, by decide +kernel, ?_, fun hproduct => ?_⟩
  · exact (hitems hplain _).mpr ⟨⟨"TERM", ["id"]⟩, by decide, hterm, 1, Nat.le_refl 1, rfl⟩
  · obtain ⟨r, -, hresult, n, -, he⟩ := (hitems hplain _).mp hproduct
    have hhead : r.result = "FACTOR" := (congrArg Item.result he).symm
    rw [hhead] at hresult
    exact hfactor hresult

end Grammar

end LRZero
