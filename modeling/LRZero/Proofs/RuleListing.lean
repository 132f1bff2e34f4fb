import Mathlib.Data.List.Nodup
import Mathlib.Data.Set.Function
import LRZero.Proofs.ViablePrefix

/-!
# The automaton does not depend on how the rules are listed

The order of the rules decides in which order items are added, symbols are
followed and states are numbered, and a repeated rule of the start symbol is
twice in state 0.  None of it reaches the sets of items: two grammars of plain
symbols with the same start symbol and the same rules have the same keys, and
the states with one key lead to states with one key.  `counterpart` gives a
state the number that its key has in the other grammar.

Main statement: `collection_relisted`.
-/

namespace LRZero.Grammar

variable {g h : Grammar}

/-- The grammars have the same start symbol and the same rules, listed in any
order and any number of times. -/
structure SameRules (g h : Grammar) : Prop where
  start : g.start = h.start
  rules : ∀ r, r ∈ g.rules ↔ r ∈ h.rules

theorem SameRules.symm (hgh : g.SameRules h) : h.SameRules g :=
  ⟨hgh.start.symm, fun r => (hgh.rules r).symm⟩

theorem SameRules.plain (hgh : g.SameRules h) (hg : ∀ r ∈ g.rules, r.Plain) :
    ∀ r ∈ h.rules, r.Plain :=
  fun r hr => hg r ((hgh.rules r).mpr hr)

/-! ## Closures and gotos -/

theorem SameRules.mem_itemsFor_iff (hgh : g.SameRules h) (x : Symbol) (i : Item) :
    i ∈ g.itemsFor x ↔ i ∈ h.itemsFor x := by
  simp only [mem_itemsFor, hgh.rules]

theorem SameRules.key_startState (hgh : g.SameRules h) (hg : ∀ r ∈ g.rules, r.Plain) :
    g.startState.key = h.startState.key := by
  refine key_eq_of_mem_iff fun i => ?_
  rw [startState, mem_closure hg (proper_of_mem_itemsFor hg), startState,
    mem_closure (hgh.plain hg) (proper_of_mem_itemsFor (hgh.plain hg)), hgh.start]
  exact inClosure_congr hgh.rules (hgh.mem_itemsFor_iff h.start)

/-- From states with the same key a symbol leads to states with the same key. -/
theorem SameRules.key_goto (hgh : g.SameRules h) (hg : ∀ r ∈ g.rules, r.Plain) {s t : State}
    (hs : ∀ i ∈ s.items, i.Proper) (ht : ∀ i ∈ t.items, i.Proper) (hkey : s.key = t.key)
    (x : Symbol) (n m : Int) : (g.goto s x n).key = (h.goto t x m).key := by
  refine key_eq_of_mem_iff fun i => ?_
  rw [mem_goto hg hs, mem_goto (hgh.plain hg) ht]
  refine inClosure_congr hgh.rules fun j => ?_
  simp only [mem_shifted hs, mem_shifted ht, mem_iff_of_key_eq hs ht hkey]

/-- A symbol behind a dot of a state leads, from the state with the same key,
to the state with the key of its goto. -/
theorem SameRules.exists_move (hgh : g.SameRules h) (hg : ∀ r ∈ g.rules, r.Plain) {i k : Nat}
    {s t : State} (hs : g.collection.states[i]? = some s) (ht : h.collection.states[k]? = some t)
    (hkey : s.key = t.key) {x : Symbol} (hx : x ∈ s.nextSymbols) :
    ∃ (l : Nat) (v : State), h.collection.trace.cell? k x = some l ∧
      h.collection.states[l]? = some v ∧ ∀ n, (g.goto s x n).key = v.key := by
  have hsp := (within_collection s (List.mem_of_getElem? hs)).proper hg
  have htp := (within_collection t (List.mem_of_getElem? ht)).proper (hgh.plain hg)
  obtain ⟨item, hitem, hnext⟩ := State.mem_nextSymbols.mp hx
  have hitem' := (mem_iff_of_key_eq hsp htp hkey item).mp hitem
  obtain ⟨l, hl⟩ := (exists_cell?_iff ht).mpr ⟨item, hitem', hnext⟩
  obtain ⟨v, hv, hvkey⟩ := leadsTo_of_cell? ht hl
  exact ⟨l, v, hl, hv, fun n => (hgh.key_goto hg hsp htp hkey x n l).trans hvkey.symm⟩

/-! ## Counterparts -/

/-- The number of the state of `h` with the key of state `i` of `g`. -/
def counterpart (g h : Grammar) (i : Nat) : Nat :=
  match g.collection.states[i]? with
  | some s => (h.collection.states.map (·.key)).idxOf s.key
  | none => 0

theorem counterpart_eq {i j : Nat} {s t : State} (hs : g.collection.states[i]? = some s)
    (ht : h.collection.states[j]? = some t) (hkey : s.key = t.key) : g.counterpart h i = j := by
  obtain ⟨_, hsearched, -, -⟩ := searched_collection h
  obtain ⟨hlt, rfl⟩ := List.getElem?_eq_some_iff.mp ht
  have hlt' : j < (h.collection.states.map (·.key)).length := by rwa [List.length_map]
  have hget : s.key = (h.collection.states.map (·.key))[j] := by rw [hkey, List.getElem_map]
  simp only [counterpart, hs, hget]
  exact hsearched.grown.distinct.idxOf_getElem j hlt'

/-- Every state has a counterpart, by induction on its number: state 0 has, and
another state comes from an earlier one by a symbol, which leads from the
counterpart of that one to a state with the same key. -/
theorem SameRules.exists_key (hgh : g.SameRules h) (hg : ∀ r ∈ g.rules, r.Plain) (i : Nat) :
    ∀ s, g.collection.states[i]? = some s →
      ∃ (j : Nat) (t : State), h.collection.states[j]? = some t ∧ s.key = t.key := by
  obtain ⟨_, hsearched, -, -⟩ := searched_collection g
  obtain ⟨_, hsearched', -, -⟩ := searched_collection h
  induction i using Nat.strongRecOn with
  | ind i ih =>
    intro s hs
    rcases Nat.eq_zero_or_pos i with rfl | hpos
    · cases hsearched.grown.start.symm.trans hs
      exact ⟨0, _, hsearched'.grown.start, hgh.key_startState hg⟩
    · obtain ⟨k, u, x, hk, hu, hx, rfl⟩ := hsearched.grown.origin i s hs hpos
      obtain ⟨l, v, hv, hkey⟩ := ih k hk u hu
      obtain ⟨j, t, -, ht, hgoto⟩ := hgh.exists_move hg hu hv hkey hx
      exact ⟨j, t, ht, hgoto i⟩

theorem SameRules.exists_counterpart (hgh : g.SameRules h) (hg : ∀ r ∈ g.rules, r.Plain) {i : Nat}
    {s : State} (hs : g.collection.states[i]? = some s) :
    ∃ t, h.collection.states[g.counterpart h i]? = some t ∧ s.key = t.key := by
  obtain ⟨j, t, ht, hkey⟩ := hgh.exists_key hg i s hs
  rw [counterpart_eq hs ht hkey]
  exact ⟨t, ht, hkey⟩

theorem SameRules.mapsTo_counterpart (hgh : g.SameRules h) (hg : ∀ r ∈ g.rules, r.Plain) :
    Set.MapsTo (g.counterpart h) {i | i < g.collection.states.length}
      {j | j < h.collection.states.length} := by
  intro i hi
  obtain ⟨t, ht, -⟩ := hgh.exists_counterpart hg (List.getElem?_eq_getElem hi)
  exact (List.getElem?_eq_some_iff.mp ht).1

theorem SameRules.leftInvOn_counterpart (hgh : g.SameRules h) (hg : ∀ r ∈ g.rules, r.Plain) :
    Set.LeftInvOn (h.counterpart g) (g.counterpart h) {i | i < g.collection.states.length} := by
  intro i hi
  have hs := List.getElem?_eq_getElem hi
  obtain ⟨t, ht, hkey⟩ := hgh.exists_counterpart hg hs
  exact counterpart_eq ht hs hkey.symm

/-- Counterparts lead to counterparts. -/
theorem SameRules.cell?_counterpart (hgh : g.SameRules h) (hg : ∀ r ∈ g.rules, r.Plain) {i j : Nat}
    {x : Symbol} (hcell : g.collection.trace.cell? i x = some j) :
    h.collection.trace.cell? (g.counterpart h i) x = some (g.counterpart h j) := by
  obtain ⟨s, hs⟩ := exists_state_of_cell? hcell
  obtain ⟨u, hu, hukey⟩ := leadsTo_of_cell? hs hcell
  obtain ⟨t, ht, hkey⟩ := hgh.exists_counterpart hg hs
  have hx : x ∈ s.nextSymbols := State.mem_nextSymbols.mpr ((exists_cell?_iff hs).mp ⟨j, hcell⟩)
  obtain ⟨l, v, hl, hv, hgoto⟩ := hgh.exists_move hg hs ht hkey hx
  rw [hl, counterpart_eq hu hv (hukey.trans (hgoto j))]

/-- The automata of two grammars of plain symbols with the same start symbol
and the same rules, however these are listed, are the same up to the numbers of
the states.  A bijection of the numbers keeps 0, keeps the keys of the states,
and turns the moves of the one into the moves of the other. -/
theorem collection_relisted (g h : Grammar) (hg : g.Plain) (hgh : g.SameRules h) :
    ∃ f : Nat → Nat, f 0 = 0 ∧
      Set.BijOn f {i | i < g.collection.states.length} {j | j < h.collection.states.length} ∧
      (∀ i s, g.collection.states[i]? = some s →
        ∃ t, h.collection.states[f i]? = some t ∧ s.key = t.key) ∧
      ∀ i j x, i < g.collection.states.length → j < g.collection.states.length →
        (g.collection.trace.cell? i x = some j ↔
          h.collection.trace.cell? (f i) x = some (f j)) := by
  obtain ⟨_, hsearched, -, -⟩ := searched_collection g
  obtain ⟨_, hsearched', -, -⟩ := searched_collection h
  have hh := hgh.plain hg.2
  have hleft := hgh.leftInvOn_counterpart hg.2
  refine ⟨g.counterpart h, ?_, ?_, fun i s hs => hgh.exists_counterpart hg.2 hs, ?_⟩
  · exact counterpart_eq hsearched.grown.start hsearched'.grown.start (hgh.key_startState hg.2)
  · exact Set.InvOn.bijOn ⟨hleft, hgh.symm.leftInvOn_counterpart hh⟩
      (hgh.mapsTo_counterpart hg.2) (hgh.symm.mapsTo_counterpart hh)
  · intro i j x hi hj
    refine ⟨hgh.cell?_counterpart hg.2, fun hcell => ?_⟩
    have hback := hgh.symm.cell?_counterpart hh hcell
    rwa [hleft hi, hleft hj] at hback

/-- The rules of lists the other way round, one of them twice. -/
def listsAgain : Grammar :=
  { lists with rules := [⟨"LIST", ["item", "LIST"]⟩, ⟨"LIST", []⟩, ⟨"LIST", ["item", "LIST"]⟩] }

/-- The automaton of lists is found again, though state 0 has an item twice. -/
theorem collection_relisted_lists :
    lists.Plain ∧ lists.SameRules listsAgain ∧
      ∃ f : Nat → Nat, f 0 = 0 ∧ ∃ q, lists.collection.trace.cell? 0 "item" = some q ∧
        listsAgain.collection.trace.cell? 0 "item" = some (f q) := by
  have hplain : lists.Plain := by decide
  have hsame : lists.SameRules listsAgain := by
    refine ⟨rfl, fun r => ?_⟩
    simp only [lists, listsAgain, List.mem_cons, List.not_mem_nil]
    tauto
  obtain ⟨_, hsearched, -, -⟩ := searched_collection lists
  obtain ⟨f, hzero, -, -, hmoves⟩ := collection_relisted lists listsAgain hplain hsame
  have hstart := hsearched.grown.start
  have hitem : Item.ofRule ⟨"LIST", ["item", "LIST"]⟩ ∈ lists.startState.items :=
    (prefix_closure ⟨0, lists.itemsFor "LIST"⟩).subset
      (mem_itemsFor.mpr ⟨_, List.mem_cons_of_mem _ List.mem_cons_self, rfl, rfl⟩)
  obtain ⟨q, hq⟩ := (exists_cell?_iff hstart).mpr ⟨_, hitem, rfl⟩
  obtain ⟨t, ht, -⟩ := leadsTo_of_cell? hstart hq
  have hmove := (hmoves 0 q "item" (List.getElem?_eq_some_iff.mp hstart).1
    (List.getElem?_eq_some_iff.mp ht).1).mp hq
  rw [hzero] at hmove
  exact ⟨hplain, hsame, f, hzero, q, hq, hmove⟩

end LRZero.Grammar
