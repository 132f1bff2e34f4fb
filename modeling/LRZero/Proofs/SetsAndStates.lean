import LRZero.Proofs.LeastSets
import LRZero.Proofs.ViablePrefix

/-!
# FIRST and FOLLOW seen in the states

The solvers go by the rules and the automaton by items, but both go from a
non-terminal to what leads the bodies of its rules.  `inClosure_iff` makes the
common ground explicit: what a closure adds to its kernel are the first items
of all rules that are reached from a non-terminal behind a dot over leading
non-terminals, and along these same chains FIRST sets hand on their members.

So the closure of the items of a symbol shows its FIRST set
(`first_shown_in_closure`), and the state behind a non-terminal shows no more
than its FOLLOW set (`follow_of_transition`).
-/

namespace LRZero

/-- What the item has to show: the terminal behind its dot, or `none` when it
is complete.  A non-terminal behind the dot is not shown. -/
def Item.Shows (i : Item) : Option Symbol → Prop
  | none => i.isComplete
  | some y => i.next? = some y ∧ ¬ y.isNonterminal

namespace Grammar

variable {g : Grammar} {a : Option Symbol} {i : Item} {x : Symbol}

/-! ## Closures and chains of leading non-terminals -/

theorem heads_iff {n m : Symbol} : g.Heads n m ↔ ∃ i ∈ g.itemsFor n, i.nonterminal? = some m := by
  constructor
  · rintro ⟨hm, r, hr, hresult, rest, hbody⟩
    refine ⟨.ofRule r, mem_itemsFor.mpr ⟨r, hr, hresult, rfl⟩, ?_⟩
    rw [Item.nonterminal?_eq_some, Item.next?_ofRule, hbody]
    exact ⟨rfl, hm⟩
  · rintro ⟨i, hi, hnext⟩
    obtain ⟨r, hr, hresult, rfl⟩ := mem_itemsFor.mp hi
    rw [Item.nonterminal?_eq_some, Item.next?_ofRule, List.head?_eq_some_iff] at hnext
    obtain ⟨⟨rest, hbody⟩, hm⟩ := hnext
    exact ⟨hm, r, hr, hresult, rest, hbody⟩

theorem begins_iff : g.Begins a x ↔ ∃ i ∈ g.itemsFor x, i.Shows a := by
  constructor
  · rintro ⟨r, hr, hresult, ⟨hbody, rfl⟩ | ⟨y, rest, hbody, hy, rfl⟩⟩
    · exact ⟨.ofRule r, mem_itemsFor.mpr ⟨r, hr, hresult, rfl⟩, Item.isComplete_ofRule.mpr hbody⟩
    · refine ⟨.ofRule r, mem_itemsFor.mpr ⟨r, hr, hresult, rfl⟩, ?_, hy⟩
      rw [Item.next?_ofRule, hbody, List.head?_cons]
  · rintro ⟨i, hi, hshows⟩
    obtain ⟨r, hr, hresult, rfl⟩ := mem_itemsFor.mp hi
    cases a with
    | none => exact ⟨r, hr, hresult, .inl ⟨Item.isComplete_ofRule.mp hshows, rfl⟩⟩
    | some y =>
      obtain ⟨hnext, hy⟩ := hshows
      rw [Item.next?_ofRule, List.head?_eq_some_iff] at hnext
      obtain ⟨rest, hbody⟩ := hnext
      exact ⟨r, hr, hresult, .inr ⟨y, rest, hbody, hy, rfl⟩⟩

/-- What a closure adds to its kernel comes along chains of leading
non-terminals, from one behind a dot of the kernel. -/
theorem inClosure_iff {kernel : List Item} :
    g.InClosure kernel i ↔ i ∈ kernel ∨ ∃ k ∈ kernel, ∃ y m, k.nonterminal? = some y ∧
      Relation.ReflTransGen g.Heads y m ∧ i ∈ g.itemsFor m := by
  constructor
  · intro h
    induction h with
    | kernel hi => exact .inl hi
    | @rule i y r _ hy hr ih =>
      have hmem : Item.ofRule r ∈ g.itemsFor y := List.mem_map.mpr ⟨r, hr, rfl⟩
      refine .inr ?_
      rcases ih with hi | ⟨k, hk, z, m, hz, hchain, hi⟩
      · exact ⟨i, hi, y, y, hy, .refl, hmem⟩
      · exact ⟨k, hk, z, y, hz, hchain.tail (heads_iff.mpr ⟨i, hi, hy⟩), hmem⟩
  · rintro (hi | ⟨k, hk, y, m, hy, hchain, hi⟩)
    · exact .kernel hi
    -- along the chain, the items of each of its symbols come in
    · induction hchain generalizing i with
      | refl =>
        obtain ⟨r, hr, rfl⟩ := List.mem_map.mp hi
        exact .rule (.kernel hk) hy hr
      | tail _ hstep ih =>
        obtain ⟨j, hj, hm⟩ := heads_iff.mp hstep
        obtain ⟨r, hr, rfl⟩ := List.mem_map.mp hi
        exact .rule (ih hj) hm hr

/-- The closure of the items of a symbol: the items of all symbols that chains
lead to from it. -/
theorem inClosure_itemsFor_iff :
    g.InClosure (g.itemsFor x) i ↔ ∃ m, Relation.ReflTransGen g.Heads x m ∧ i ∈ g.itemsFor m := by
  rw [inClosure_iff]
  constructor
  · rintro (hi | ⟨k, hk, y, m, hy, hchain, hi⟩)
    · exact ⟨x, .refl, hi⟩
    · exact ⟨m, hchain.head (heads_iff.mpr ⟨k, hk, hy⟩), hi⟩
  · rintro ⟨m, hchain, hi⟩
    rcases hchain.cases_head with rfl | ⟨y, hstep, hchain⟩
    · exact .inl hi
    · obtain ⟨k, hk, hy⟩ := heads_iff.mp hstep
      exact .inr ⟨k, hk, y, m, hy, hchain, hi⟩

/-! ## FIRST -/

theorem leads_iff_shown : g.Leads a x ↔ ∃ i, g.InClosure (g.itemsFor x) i ∧ i.Shows a := by
  simp only [leads_iff_chain, begins_iff, inClosure_itemsFor_iff]
  constructor
  · rintro ⟨m, hchain, i, hi, hshows⟩
    exact ⟨i, ⟨m, hchain, hi⟩, hshows⟩
  · rintro ⟨i, ⟨m, hchain, hi⟩, hshows⟩
    exact ⟨m, hchain, i, hi, hshows⟩

/-- A state made of the first items of the rules of a symbol, in any order and
multiplicity, has their closure. -/
theorem mem_closure_of_itemsFor (hg : ∀ r ∈ g.rules, r.Plain) {kernel : State}
    (hkernel : ∀ i, i ∈ kernel.items ↔ i ∈ g.itemsFor x) :
    i ∈ (g.closure kernel).items ↔ g.InClosure (g.itemsFor x) i := by
  have hproper : ∀ j ∈ kernel.items, j.Proper :=
    fun j hj => proper_of_mem_itemsFor hg j ((hkernel j).mp hj)
  rw [mem_closure hg hproper]
  exact inClosure_congr (fun _ => .rfl) hkernel

/-- FIRST as the closure of the items of a symbol shows it, in a grammar of
plain symbols.  The terminals behind the dots are exactly the members of the
FIRST set, and the mark of an empty body is in the set exactly if some item is
complete, which only the first item of an empty rule can be. -/
theorem first_shown_in_closure (g : Grammar) (hg : g.Plain) {x : Symbol}
    (hx : ∃ r ∈ g.rules, r.result = x) {kernel : State}
    (hkernel : ∀ i, i ∈ kernel.items ↔ i ∈ g.itemsFor x) :
    ∃ set s symbols, g.first.find x = .ok set ∧ (g.closure? kernel).1 = .ok s ∧
      s.symbols = .ok symbols ∧
      (∀ y, some y ∈ set ↔ y ∈ symbols ∧ ¬ y.isNonterminal) ∧
      (none ∈ set ↔ ∃ i ∈ s.items, i.isComplete) ∧
      ∀ i ∈ s.items, i.isComplete → ∃ r ∈ g.rules, r.body = [] ∧ i = .ofRule r := by
  have hmem : ∀ i, i ∈ (g.closure kernel).items ↔ g.InClosure (g.itemsFor x) i :=
    fun i => mem_closure_of_itemsFor hg.2 hkernel
  have hrule : ∀ i ∈ (g.closure kernel).items, ∃ r ∈ g.rules, i = .ofRule r := by
    intro i hi
    obtain ⟨m, -, hi⟩ := inClosure_itemsFor_iff.mp ((hmem i).mp hi)
    obtain ⟨r, hr, -, rfl⟩ := mem_itemsFor.mp hi
    exact ⟨r, hr, rfl⟩
  have hinBody : ∀ i ∈ (g.closure kernel).items, i.InBody := by
    intro i hi
    obtain ⟨r, -, rfl⟩ := hrule i hi
    exact Item.inBody_ofRuleAt (Nat.zero_le _)
  have hkernelBody : ∀ i ∈ kernel.items, i.InBody :=
    fun i hi => hinBody i ((prefix_closure kernel).subset hi)
  have hfirst : ∀ a, a ∈ g.first.get x ↔ ∃ i ∈ (g.closure kernel).items, i.Shows a := by
    intro a
    simp only [mem_first, leads_iff_shown, hmem]
  refine ⟨_, _, _, Inclusion.find_eq_ok (mem_keys_first.mpr hx),
    congrArg Prod.fst (closure?_eq_ok hkernelBody), State.symbols_eq_ok hinBody, ?_, hfirst none, ?_⟩
  · intro y
    rw [hfirst, State.mem_nextSymbols]
    constructor
    · rintro ⟨i, hi, hnext, hy⟩
      exact ⟨⟨i, hi, hnext⟩, hy⟩
    · rintro ⟨⟨i, hi, hnext⟩, hy⟩
      exact ⟨i, hi, hnext, hy⟩
  · intro i hi hcomplete
    obtain ⟨r, hr, rfl⟩ := hrule i hi
    exact ⟨r, hr, Item.isComplete_ofRule.mp hcomplete, rfl⟩

/-- A list begins with an item or is empty. -/
theorem first_shown_in_closure_lists :
    lists.Plain ∧ (∃ r ∈ lists.rules, r.result = "LIST") ∧
      ∃ set s symbols, lists.first.find "LIST" = .ok set ∧
        (lists.closure? ⟨0, lists.itemsFor "LIST"⟩).1 = .ok s ∧ s.symbols = .ok symbols ∧
        none ∈ set ∧ some "item" ∈ set ∧ "item" ∈ symbols := by
  have hplain : lists.Plain := by decide
  have hlist : ∃ r ∈ lists.rules, r.result = "LIST" := by decide
  let kernel : State := ⟨0, lists.itemsFor "LIST"⟩
  have hkernel : ∀ i, i ∈ kernel.items ↔ i ∈ lists.itemsFor "LIST" := fun _ => .rfl
  obtain ⟨set, s, symbols, hset, hs, hsymbols, hterminals, -, -⟩ :=
    first_shown_in_closure lists hplain hlist hkernel
  have hempty : none ∈ lists.first.get "LIST" :=
    mem_first.mpr (@Leads.empty lists none ⟨"LIST", []⟩ (by decide) rfl rfl)
  have hitem : some "item" ∈ lists.first.get "LIST" :=
    mem_first.mpr (@Leads.terminal lists _ ⟨"LIST", ["item", "LIST"]⟩ "item" ["LIST"] (by decide) rfl
      (by decide) rfl)
  have hget : lists.first.get "LIST" = set :=
    Except.ok.inj ((Inclusion.find_eq_ok (mem_keys_first.mpr hlist)).symm.trans hset)
  rw [hget] at hempty hitem
  exact ⟨hplain, hlist, set, s, symbols, hset, hs, hsymbols, hempty, hitem,
    ((hterminals "item").mp hitem).1⟩

/-! ## FOLLOW -/

/-- The items of a goto before its closure stand behind the symbol, at a place
of some rule. -/
theorem exists_place_of_mem_shifted {s : State} (hs : g.Within s) (hi : i ∈ shifted s x) :
    ∃ r ∈ g.rules, ∃ α β, r.body = α ++ x :: β ∧ i = .ofRuleAt r (α.length + 1 : Nat) := by
  obtain ⟨j, hj, rfl⟩ := List.mem_map.mp (fresh_subset hi)
  obtain ⟨hj, hx⟩ := List.mem_filter.mp hj
  obtain ⟨r, hr, n, -, rfl⟩ := mem_items.mp (hs j hj)
  rw [decide_eq_true_eq, Item.next?_ofRuleAt] at hx
  obtain ⟨hn, rfl⟩ := List.getElem?_eq_some_iff.mp hx
  refine ⟨r, hr, r.body.take n, r.body.drop (n + 1), ?_, ?_⟩
  · rw [List.getElem_cons_drop, List.take_append_drop]
  · rw [List.length_take, Nat.min_eq_left (Nat.le_of_lt hn)]
    rfl

theorem next?_behind {r : Rule} {α β : List Symbol} (h : r.body = α ++ x :: β) :
    (Item.ofRuleAt r (α.length + 1 : Nat)).next? = β.head? := by
  have hsplit : r.body = (α ++ [x]) ++ β := by rw [h, List.append_cons]
  have hnext := next?_of_body hsplit
  rwa [List.length_append] at hnext

/-- What an item of a goto shows follows the symbol, unless the item is
complete and had its dot moved. -/
theorem follows_of_shows {s : State} (hs : g.Within s) (hx : x.isNonterminal)
    (hi : g.InClosure (shifted s x) i) (hshows : i.Shows a) (hdot : a = none → i.dot = 0) :
    g.Follows a x := by
  rcases inClosure_iff.mp hi with hi | ⟨k, hk, y, m, hy, hchain, hi⟩
  -- the dot has been moved over `x`: what is shown is the next symbol of the body
  · obtain ⟨r, hr, α, β, hbody, rfl⟩ := exists_place_of_mem_shifted hs hi
    cases a with
    | none => exact absurd (Int.ofNat_eq_zero.mp (hdot rfl)) (Nat.succ_ne_zero _)
    | some z =>
      obtain ⟨hnext, hz⟩ := hshows
      rw [next?_behind hbody, List.head?_eq_some_iff] at hnext
      obtain ⟨β, rfl⟩ := hnext
      exact .next hr hbody hx (mem_firstOfSymbol.mpr (.inr ⟨hz, rfl⟩))
  -- the closure has added it: what is shown begins the next symbol of a body
  · obtain ⟨r, hr, α, β, hbody, rfl⟩ := exists_place_of_mem_shifted hs hk
    obtain ⟨hnext, hy⟩ := Item.nonterminal?_eq_some.mp hy
    rw [next?_behind hbody, List.head?_eq_some_iff] at hnext
    obtain ⟨β, rfl⟩ := hnext
    have hleads : g.Leads a y := leads_iff_chain.mpr ⟨m, hchain, begins_iff.mpr ⟨i, hi, hshows⟩⟩
    exact .next hr hbody hx (mem_firstOfSymbol.mpr (.inl ⟨hy, hleads⟩))

/-- A complete item of a goto is that of an empty rule, or ends in the symbol. -/
theorem exists_last_of_isComplete {s : State} (hs : g.Within s) (hi : g.InClosure (shifted s x) i)
    (hcomplete : i.isComplete) :
    i.body = [] ∨ ∃ r ∈ g.rules, ∃ α, r.body = α ++ [x] ∧ i = .ofRuleAt r r.body.length := by
  rcases inClosure_iff.mp hi with hi | ⟨_, _, _, m, _, _, hi⟩
  · obtain ⟨r, hr, α, β, hbody, rfl⟩ := exists_place_of_mem_shifted hs hi
    have hlength := Item.isComplete_ofRuleAt.mp hcomplete
    simp only [hbody, List.length_append, List.length_cons] at hlength
    obtain rfl : β = [] := List.length_eq_zero_iff.mp (by omega)
    exact .inr ⟨r, hr, α, hbody, by rw [hbody, List.length_append]; rfl⟩
  · obtain ⟨r, -, -, rfl⟩ := mem_itemsFor.mp hi
    exact .inl (Item.isComplete_ofRule.mp hcomplete)

/-- FOLLOW against the automaton of a grammar of plain symbols.  In the state
that a non-terminal leads to, each terminal behind a dot follows the
non-terminal, and so does the mark of an empty body where an empty rule is
complete; any other complete item ends in the non-terminal, and what follows
its result follows the non-terminal. -/
theorem follow_of_transition (g : Grammar) (hg : g.Plain) {x : Symbol} (hx : x.isNonterminal)
    {p q : Nat} (h : g.collection.trace.cell? p x = some q) :
    ∃ t symbols set, g.collection.states[q]? = some t ∧ t.symbols = .ok symbols ∧
      g.follow.find x = .ok set ∧
      (∀ y ∈ symbols, ¬ y.isNonterminal → some y ∈ set) ∧
      ((∃ i ∈ t.items, i.isComplete ∧ i.dot = 0) → none ∈ set) ∧
      ∀ i ∈ t.items, i.isComplete → i.body ≠ [] →
        (∃ α, i.body = α ++ [x]) ∧ ∃ set', g.follow.find i.result = .ok set' ∧ set' ⊆ set := by
  obtain ⟨s, hs⟩ := exists_state_of_cell? h
  obtain ⟨t, ht, hitems⟩ := exists_goto_of_cell? hg.2 hs h
  have hsw := within_collection s (List.mem_of_getElem? hs)
  have htw := within_collection t (List.mem_of_getElem? ht)
  have hmem : ∀ i ∈ t.items, g.InClosure (shifted s x) i :=
    fun i hi => (mem_goto hg.2 (hsw.proper hg.2)).mp ((hitems i).mp hi)
  have hkey : x ∈ g.follow.keys := by
    obtain ⟨i, hi, hnext⟩ := (exists_cell?_iff hs).mp ⟨q, h⟩
    obtain ⟨r, hr, n, -, rfl⟩ := mem_items.mp (hsw i hi)
    rw [Item.next?_ofRuleAt] at hnext
    exact mem_keys_follow.mpr (.inr (.inr (.inl ⟨hx, r, hr, List.mem_of_getElem? hnext⟩)))
  refine ⟨t, _, _, ht, State.symbols_eq_ok htw.inBody, Inclusion.find_eq_ok hkey, ?_, ?_, ?_⟩
  · intro y hy hterminal
    obtain ⟨i, hi, hnext⟩ := State.mem_nextSymbols.mp hy
    have hshows : i.Shows (some y) := ⟨hnext, hterminal⟩
    exact mem_follow.mpr (follows_of_shows hsw hx (hmem i hi) hshows fun h => by cases h)
  · rintro ⟨i, hi, hcomplete, hdot⟩
    have hshows : i.Shows none := hcomplete
    exact mem_follow.mpr (follows_of_shows hsw hx (hmem i hi) hshows fun _ => hdot)
  · intro i hi hcomplete hbody
    obtain ⟨r, hr, α, hlast, rfl⟩ := (exists_last_of_isComplete hsw (hmem i hi) hcomplete).resolve_left hbody
    have hresult : r.result ∈ g.follow.keys := mem_keys_follow.mpr (.inl ⟨r, hr, rfl⟩)
    refine ⟨⟨α, hlast⟩, g.follow.get r.result, Inclusion.find_eq_ok hresult, ?_⟩
    intro a ha
    exact mem_follow.mpr (.last hr hlast hx (mem_follow.mp ha))

/-- A sum can be followed by a plus sign: in the state behind a sum the sign is
behind a dot. -/
theorem follow_of_transition_sums :
    sums.Plain ∧ Symbol.isNonterminal "EXPR" ∧
      ∃ q t symbols set, sums.collection.trace.cell? 0 "EXPR" = some q ∧
        sums.collection.states[q]? = some t ∧ t.symbols = .ok symbols ∧ "+" ∈ symbols ∧
        sums.follow.find "EXPR" = .ok set ∧ some "+" ∈ set := by
  have hplain : sums.Plain := by decide
  have hexpr : Symbol.isNonterminal "EXPR" := by decide
  obtain ⟨_, hsearched, -, -⟩ := searched_collection sums
  have hstart := hsearched.grown.start
  have hitem : Item.ofRule ⟨"EXPR", ["EXPR", "+", "TERM"]⟩ ∈ sums.startState.items :=
    (prefix_closure ⟨0, sums.itemsFor "EXPR"⟩).subset
      (mem_itemsFor.mpr ⟨_, List.mem_cons_self, rfl, rfl⟩)
  obtain ⟨q, hq⟩ := (exists_cell?_iff hstart).mpr ⟨_, hitem, rfl⟩
  obtain ⟨t, symbols, set, ht, hsymbols, hset, hterminals, -, -⟩ :=
    follow_of_transition sums hplain hexpr hq
  -- the item with the dot moved over the sum has the sign behind it
  have hplus : "+" ∈ symbols := by
    obtain ⟨t', ht', hitems⟩ := exists_goto_of_cell? hplain.2 hstart hq
    cases ht.symm.trans ht'
    have htw := within_collection t (List.mem_of_getElem? ht)
    have hproper := sums.startState_within.proper hplain.2
    have hmoved : (Item.ofRule ⟨"EXPR", ["EXPR", "+", "TERM"]⟩).advanced ∈ t.items :=
      (hitems _).mpr ((mem_goto hplain.2 hproper).mpr
        (.kernel ((mem_shifted hproper).mpr ⟨_, hitem, rfl, rfl⟩)))
    cases hsymbols.symm.trans (State.symbols_eq_ok htw.inBody)
    exact State.mem_nextSymbols.mpr ⟨_, hmoved, rfl⟩
  exact ⟨hplain, hexpr, q, t, symbols, set, hq, ht, hsymbols, hplus, hset,
    hterminals "+" hplus (by decide)⟩

end Grammar

end LRZero
