import LRZero.Proofs.BreadthFirst
import LRZero.Proofs.CellsAndEdges
import LRZero.Proofs.SetsAndStates

/-!
# Each state has one accessing symbol

An item of a goto either has its dot behind the symbol that was followed, or
comes from the closure and has its dot before the body (`dot_of_inClosure`).
Items whose dot has been moved are thus told from the others by themselves, and
the state they are in is reached over the symbol before their dots and over no
other.  State 0 has no such item, so nothing leads there.  In the graph this
leaves one symbol for each edge.

All this is about items, while states are told apart by texts: it takes plain
symbols for a state to hold the items, and not only the texts, of every goto
that leads there.

Main statement: `accessing_symbols`.
-/

namespace LRZero

theorem eq_singleton_of_nodup {α : Type} {l : List α} {a : α} (hl : l.Nodup) (ha : a ∈ l)
    (h : ∀ b ∈ l, b = a) : l = [a] := by
  match l with
  | [] => exact absurd ha List.not_mem_nil
  | [b] => rw [h b List.mem_cons_self]
  | b :: c :: l =>
    have hb := h b List.mem_cons_self
    have hc := h c (List.mem_cons_of_mem _ List.mem_cons_self)
    refine absurd ?_ (List.nodup_cons.mp hl).1
    rw [hb, hc]
    exact List.mem_cons_self

namespace Grammar

variable {g : Grammar} {i : Item} {x : Symbol}

/-! ## What stands before the dots of a goto -/

theorem before_behind {r : Rule} {α β : List Symbol} (h : r.body = α ++ x :: β) :
    (Item.ofRuleAt r (α.length + 1 : Nat)).before = α ++ [x] := by
  have hn : α.length + 1 ≤ r.body.length := by
    rw [h, List.length_append, List.length_cons]
    omega
  have hcut : (Item.ofRuleAt r (α.length + 1 : Nat)).cut = (α ++ [x]).length := by
    rw [List.length_append]
    exact Int.ofNat_inj.mp (Item.inBody_ofRuleAt hn).cut_eq
  have hbody : (Item.ofRuleAt r (α.length + 1 : Nat)).body = (α ++ [x]) ++ β :=
    h.trans (List.append_cons α x β)
  rw [Item.before, hcut, hbody, List.take_left]

/-- The dot has been moved, and this over the symbol. -/
def MovedOver (x : Symbol) (i : Item) : Prop := 1 ≤ i.dot ∧ i.before.getLast? = some x

theorem movedOver_of_mem_shifted {s : State} (hs : g.Within s) (hi : i ∈ shifted s x) :
    MovedOver x i := by
  obtain ⟨r, -, α, β, hbody, rfl⟩ := exists_place_of_mem_shifted hs hi
  constructor
  · exact Int.ofNat_le.mpr (Nat.le_add_left 1 α.length)
  · rw [before_behind hbody, List.getLast?_concat]

/-- What a closure adds has its dot before the body. -/
theorem dot_of_inClosure {kernel : List Item} (h : g.InClosure kernel i) :
    i ∈ kernel ∨ i.dot = 0 := by
  cases h with
  | kernel hi => exact .inl hi
  | rule => exact .inr rfl

/-- In a state that a symbol leads to, some dots have been moved over the symbol
and none over another. -/
theorem movedOver_of_cell? (hg : ∀ r ∈ g.rules, r.Plain) {p q : Nat} {t : State}
    (h : g.collection.trace.cell? p x = some q) (ht : g.collection.states[q]? = some t) :
    (∀ i ∈ t.items, i.dot = 0 ∨ MovedOver x i) ∧ ∃ i ∈ t.items, MovedOver x i := by
  obtain ⟨s, hs⟩ := exists_state_of_cell? h
  obtain ⟨t', ht', hitems⟩ := exists_goto_of_cell? hg hs h
  cases ht.symm.trans ht'
  have hsw := within_collection s (List.mem_of_getElem? hs)
  have hmem : ∀ i, i ∈ t.items ↔ g.InClosure (shifted s x) i :=
    fun i => (hitems i).trans (mem_goto hg (hsw.proper hg))
  constructor
  · intro i hi
    exact (dot_of_inClosure ((hmem i).mp hi)).symm.imp_right (movedOver_of_mem_shifted hsw)
  -- the symbol is behind a dot of the state it leads from
  · obtain ⟨i, hi, hnext⟩ := (exists_cell?_iff hs).mp ⟨q, h⟩
    have hshifted : i.advanced ∈ shifted s x :=
      (mem_shifted (hsw.proper hg)).mpr ⟨i, hi, hnext, rfl⟩
    exact ⟨i.advanced, (hmem _).mpr (.kernel hshifted), movedOver_of_mem_shifted hsw hshifted⟩

theorem dot_of_startState (hg : ∀ r ∈ g.rules, r.Plain) (hi : i ∈ g.startState.items) :
    i.dot = 0 := by
  rw [startState, mem_closure_of_itemsFor (x := g.start) hg fun _ => .rfl] at hi
  rcases dot_of_inClosure hi with hi | hdot
  · obtain ⟨r, -, -, rfl⟩ := mem_itemsFor.mp hi
    rfl
  · exact hdot

/-! ## Accessing symbols -/

/-- The symbol leads to the state with number `q`, and it stands directly before
every dot that is not before its body, of which there are some. -/
structure Accesses (g : Grammar) (q : Nat) (t : State) (x : Symbol) : Prop where
  leads : ∃ p, g.collection.trace.cell? p x = some q
  before : ∀ i ∈ t.items, 1 ≤ i.dot → i.before.getLast? = some x
  moved : ∃ i ∈ t.items, 1 ≤ i.dot

theorem accesses_of_cell? (hg : ∀ r ∈ g.rules, r.Plain) {p q : Nat} {t : State}
    (h : g.collection.trace.cell? p x = some q) (ht : g.collection.states[q]? = some t) :
    g.Accesses q t x := by
  obtain ⟨hall, i, hi, hmoved⟩ := movedOver_of_cell? hg h ht
  refine ⟨⟨p, h⟩, fun j hj hdot => ?_, i, hi, hmoved.1⟩
  rcases hall j hj with hzero | hmoved
  · omega
  · exact hmoved.2

theorem symbol_unique (hg : ∀ r ∈ g.rules, r.Plain) {p p' q : Nat} {x' : Symbol}
    (h : g.collection.trace.cell? p x = some q) (h' : g.collection.trace.cell? p' x' = some q) :
    x = x' := by
  obtain ⟨t, ht⟩ := exists_state_of_target h
  obtain ⟨i, hi, hdot⟩ := (accesses_of_cell? hg h ht).moved
  have hx := (accesses_of_cell? hg h ht).before i hi hdot
  have hx' := (accesses_of_cell? hg h' ht).before i hi hdot
  exact Option.some.inj (hx.symm.trans hx')

theorem symbols_edge (hg : ∀ r ∈ g.rules, r.Plain) {e : Edge} (he : e ∈ g.graph.edges) :
    ∃ x, e.symbols = [x] := by
  have hregular := regular_trace g
  obtain ⟨⟨x, hx⟩, hsymbols⟩ := (Trace.mem_edges hregular).mp he
  refine ⟨x, ?_⟩
  have hnodup : (g.collection.trace.symbolsBetween e.source e.target).Nodup :=
    hregular.nodup_columns.filter _
  rw [hsymbols]
  refine eq_singleton_of_nodup hnodup (Trace.mem_symbolsBetween.mpr hx) fun y hy => ?_
  exact symbol_unique hg (Trace.mem_symbolsBetween.mp hy) hx

theorem length_edges (hg : ∀ r ∈ g.rules, r.Plain) :
    g.graph.edges.length = g.collection.trace.transitions.length := by
  have hregular := regular_trace g
  -- two states have one symbol between them, so they tell the transition
  have hnodup : (g.collection.trace.transitions.map (·.ends)).Nodup := by
    refine (Trace.nodup_transitions hregular).map_on fun tr htr tr' htr' hends => ?_
    have hcell := (Trace.mem_transitions hregular).mp htr
    have hcell' := (Trace.mem_transitions hregular).mp htr'
    obtain ⟨source, symbol, target⟩ := tr
    obtain ⟨source', symbol', target'⟩ := tr'
    cases hends
    exact congrArg (Transition.mk source · target) (symbol_unique hg hcell hcell')
  have hperm : (g.graph.edges.map (·.ends)).Perm
      (g.collection.trace.transitions.map (·.ends)) := by
    refine (List.perm_ext_iff_of_nodup (Trace.nodup_edges hregular _) hnodup).mpr fun k => ?_
    exact Graph.mem_ends_iff hregular
  rw [← List.length_map, hperm.length_eq, List.length_map]

/-- The states of a grammar of plain symbols and the symbols that lead to them.
All ways to a state end in the same symbol, and none leads to state 0.  Where a
dot is not before its body, the symbol that leads to the state stands before it;
such items are in every state but the first, where there are none.  So an edge
of the graph has one symbol, and there are as many edges as cells that show
something. -/
theorem accessing_symbols (g : Grammar) (hg : ∀ r ∈ g.rules, r.Plain) :
    (∀ p p' q x x', g.collection.trace.cell? p x = some q →
      g.collection.trace.cell? p' x' = some q → x = x') ∧
    (∀ p x, g.collection.trace.cell? p x ≠ some 0) ∧
    (∀ (q : Nat) (t : State), 0 < q → g.collection.states[q]? = some t → ∃ x, g.Accesses q t x) ∧
    (∀ t, g.collection.states[0]? = some t → ∀ i ∈ t.items, i.dot = 0) ∧
    (∀ e ∈ g.graph.edges, ∃ x, e.symbols = [x] ∧ e.label = x) ∧
    g.graph.edges.length = g.collection.trace.rows.flatten.countP (·.isSome) := by
  obtain ⟨_, hsearched, -, -⟩ := searched_collection g
  have hstart := hsearched.grown.start
  refine ⟨fun p p' q x x' => symbol_unique hg, ?_, ?_, ?_, ?_, ?_⟩
  · intro p x h
    obtain ⟨i, hi, hdot⟩ := (accesses_of_cell? hg h hstart).moved
    have hzero := dot_of_startState hg hi
    omega
  · intro q t hpos ht
    obtain ⟨k, -, x, hx⟩ := exists_earlier hpos (List.getElem?_eq_some_iff.mp ht).1
    exact ⟨x, accesses_of_cell? hg hx ht⟩
  · intro t ht i hi
    cases hstart.symm.trans ht
    exact dot_of_startState hg hi
  · intro e he
    obtain ⟨x, hx⟩ := symbols_edge hg he
    refine ⟨x, hx, ?_⟩
    rw [Edge.label, hx, String.intercalate_singleton]
  · rw [length_edges hg, Trace.length_transitions (regular_trace g)]

/-- The state behind a sum is behind a sum only. -/
theorem accessing_symbols_sums :
    (∀ r ∈ sums.rules, r.Plain) ∧
      ∃ q t, sums.collection.trace.cell? 0 "EXPR" = some q ∧
        sums.collection.states[q]? = some t ∧ sums.Accesses q t "EXPR" ∧
        ∀ p x, sums.collection.trace.cell? p x = some q → x = "EXPR" := by
  have hplain : ∀ r ∈ sums.rules, r.Plain := by decide
  obtain ⟨hunique, hzero, haccess, -⟩ := accessing_symbols sums hplain
  have hrule : ⟨"EXPR", ["EXPR", "+", "TERM"]⟩ ∈ sums.rulesFor sums.start := by decide
  obtain ⟨q, hq⟩ := exists_cell?_zero hrule rfl
  obtain ⟨t, ht⟩ := exists_state_of_target hq
  have hpos : 0 < q := Nat.pos_of_ne_zero fun h => hzero 0 "EXPR" (h ▸ hq)
  obtain ⟨x, hx⟩ := haccess q t hpos ht
  obtain ⟨p, hp⟩ := hx.leads
  obtain rfl : x = "EXPR" := hunique p 0 q _ _ hp hq
  exact ⟨hplain, q, t, hq, ht, hx, fun p x hx => hunique p 0 q _ _ hx hq⟩

end Grammar

end LRZero
