import LRZero.Collection
import LRZero.Proofs.FirstOccurrences
import LRZero.Proofs.ItemText

/-!
# What the closure of a state holds

The sweep visits the items of a growing list.  All that it adds belongs to a
rule of a non-terminal behind some dot (`InClosure`), and at its end every
such item is there, as far as texts go: `closed_closure`.  A state for which
this holds already is its own closure.  For items whose texts tell them apart
the closure holds `InClosure` exactly, and `goto` the same of the items shifted
over the symbol.

The invariant of the sweep is `Swept`: a visited item has the non-terminal
behind its dot expanded, and the items of expanded non-terminals are there.
-/

namespace LRZero

/-! ## Items and states -/

theorem Item.nonterminal?_eq_some {i : Item} {x : Symbol} :
    i.nonterminal? = some x ↔ i.next? = some x ∧ x.isNonterminal := by
  rw [Item.nonterminal?, Option.filter_eq_some_iff]

theorem Item.isComplete_ofRuleAt {r : Rule} {n : Nat} :
    (Item.ofRuleAt r n).isComplete ↔ r.body.length ≤ n := by
  rw [Item.isComplete, decide_eq_true_eq]
  exact Int.ofNat_le

theorem Item.isComplete_ofRule {r : Rule} : (Item.ofRule r).isComplete ↔ r.body = [] := by
  show (Item.ofRuleAt r (0 : Nat)).isComplete ↔ r.body = []
  rw [Item.isComplete_ofRuleAt, Nat.le_zero, List.length_eq_zero_iff]

theorem Item.next?_ofRule (r : Rule) : (Item.ofRule r).next? = r.body.head? := by
  show (Item.ofRuleAt r (0 : Nat)).next? = r.body.head?
  rw [Item.next?_ofRuleAt, List.head?_eq_getElem?]

theorem State.mem_key {s : State} {t : String} : t ∈ s.key ↔ ∃ i ∈ s.items, i.text = t := by
  rw [State.key, SortedSet.mem_ofList, State.texts, List.mem_map]

theorem State.holds_iff {s : State} {i : Item} : s.holds i ↔ i.text ∈ s.texts := by
  rw [State.holds, List.any_eq_true, State.texts, List.mem_map]
  simp only [Item.same, decide_eq_true_eq]

theorem Item.fault?_eq_none_of_nonneg {i : Item} (h : 0 ≤ i.dot) : i.fault? = none := by
  have hnonneg : ¬ (i.body.length + i.dot < 0) := by omega
  rw [Item.fault?, if_neg hnonneg]

theorem Item.InBody.fault?_eq_none {i : Item} (h : i.InBody) : i.fault? = none :=
  Item.fault?_eq_none_of_nonneg h.1

theorem Item.next_eq_ok_iff {i : Item} {x : Option Symbol} :
    i.next = .ok x ↔ i.fault? = none ∧ i.next? = x := by
  cases hfault : i.fault? with
  | none => simp [Item.next, hfault]
  | some f => simp [Item.next, hfault]

theorem Item.not_isComplete_iff {i : Item} : ¬ i.isComplete ↔ i.dot < i.body.length := by
  rw [Item.isComplete, decide_eq_true_iff, Int.not_le]

theorem Item.advance_of_isComplete {i : Item} (h : i.isComplete) :
    i.advance = .error .dotAtEnd := by
  rw [Item.advance, if_pos h]

theorem Item.advance_of_not_isComplete {i : Item} (h : ¬ i.isComplete) :
    i.advance = .ok i.advanced := by
  rw [Item.advance, if_neg h]

theorem State.fault?_eq_none {s : State} (h : ∀ i ∈ s.items, i.InBody) : s.fault? = none := by
  rw [State.fault?, List.findSome?_eq_none_iff]
  intro i hi
  exact (h i hi).fault?_eq_none

theorem State.symbols_eq_ok {s : State} (h : ∀ i ∈ s.items, i.InBody) :
    s.symbols = .ok s.nextSymbols := by
  rw [State.symbols, State.fault?_eq_none h]

namespace Grammar

variable {g : Grammar}

theorem mem_rulesFor {r : Rule} {x : Symbol} : r ∈ g.rulesFor x ↔ r ∈ g.rules ∧ r.result = x := by
  rw [rulesFor, List.mem_filter, decide_eq_true_eq]

theorem mem_itemsFor {x : Symbol} {i : Item} :
    i ∈ g.itemsFor x ↔ ∃ r ∈ g.rules, r.result = x ∧ i = .ofRule r := by
  simp only [itemsFor, List.mem_map, mem_rulesFor, and_assoc, eq_comm]

/-- `InClosure g kernel i`: the item is in the kernel, or it is the first one
of a rule of a non-terminal behind the dot of such an item. -/
inductive InClosure (g : Grammar) (kernel : List Item) : Item → Prop
  | kernel {i : Item} : i ∈ kernel → InClosure g kernel i
  | rule {i : Item} {x : Symbol} {r : Rule} : InClosure g kernel i → i.nonterminal? = some x →
      r ∈ g.rulesFor x → InClosure g kernel (.ofRule r)

/-- The closure grows with the rules and with the kernel. -/
theorem InClosure.mono {h : Grammar} (hrules : ∀ r ∈ g.rules, r ∈ h.rules) {kernel kernel' : List Item}
    (hkernel : ∀ i ∈ kernel, h.InClosure kernel' i) {i : Item} (hi : g.InClosure kernel i) :
    h.InClosure kernel' i := by
  induction hi with
  | kernel hi => exact hkernel _ hi
  | rule _ hx hr ih =>
    obtain ⟨hr, hresult⟩ := mem_rulesFor.mp hr
    exact .rule ih hx (mem_rulesFor.mpr ⟨hrules _ hr, hresult⟩)

/-- A closure is that of the set of its kernel under the set of the rules. -/
theorem inClosure_congr {h : Grammar} (hrules : ∀ r, r ∈ g.rules ↔ r ∈ h.rules)
    {kernel kernel' : List Item} (hkernel : ∀ i, i ∈ kernel ↔ i ∈ kernel') {i : Item} :
    g.InClosure kernel i ↔ h.InClosure kernel' i := by
  constructor
  · exact InClosure.mono (fun r hr => (hrules r).mp hr) fun j hj => .kernel ((hkernel j).mp hj)
  · exact InClosure.mono (fun r hr => (hrules r).mpr hr) fun j hj => .kernel ((hkernel j).mpr hj)

/-! ## Fresh items -/

theorem text_mem_fresh (seen : List String) {l : List Item} {i : Item} (h : i ∈ l) :
    i.text ∈ seen ∨ i.text ∈ (Item.fresh seen l).map (·.text) := by
  induction l generalizing seen with
  | nil => exact absurd h List.not_mem_nil
  | cons j l ih =>
    rw [Item.fresh]
    split
    · next hj =>
      rcases List.mem_cons.mp h with rfl | h
      · exact .inl hj
      · exact ih seen h
    · rw [List.map_cons, List.mem_cons]
      rcases List.mem_cons.mp h with rfl | h
      · exact .inr (.inl rfl)
      · rcases ih (j.text :: seen) h with h | h
        · rcases List.mem_cons.mp h with h | h
          · exact .inr (.inl h)
          · exact .inl h
        · exact .inr (.inr h)

/-! ## The sweep -/

theorem prefix_sweep (pending items : List Item) (expanded : List Symbol) :
    items <+: (g.sweep pending items expanded).items := by
  fun_induction sweep g pending items expanded with
  | case1 => exact List.prefix_refl _
  | case2 _ _ _ _ _ ih => exact ih
  | case3 _ _ _ _ _ _ _ ih => exact ih
  | case4 _ _ _ _ _ _ _ ih => exact (List.prefix_append _ _).trans ih

theorem inClosure_of_sweep {kernel : List Item} (pending items : List Item)
    (expanded : List Symbol) (hpending : ∀ i ∈ pending, g.InClosure kernel i)
    (hitems : ∀ i ∈ items, g.InClosure kernel i) :
    ∀ i ∈ (g.sweep pending items expanded).items, g.InClosure kernel i := by
  fun_induction sweep g pending items expanded with
  | case1 => exact hitems
  | case2 _ _ _ _ _ ih => exact ih (fun j hj => hpending j (List.mem_cons_of_mem _ hj)) hitems
  | case3 _ _ _ _ _ _ _ ih =>
    exact ih (fun j hj => hpending j (List.mem_cons_of_mem _ hj)) hitems
  | case4 items expanded i rest x hx _ ih =>
    have hnew : ∀ j ∈ g.newItems items x, g.InClosure kernel j := by
      intro j hj
      obtain ⟨r, hr, rfl⟩ := List.mem_map.mp (fresh_subset hj)
      exact .rule (hpending i List.mem_cons_self) hx hr
    apply ih
    · intro j hj
      rcases List.mem_append.mp hj with hj | hj
      · exact hpending j (List.mem_cons_of_mem _ hj)
      · exact hnew j hj
    · intro j hj
      rcases List.mem_append.mp hj with hj | hj
      · exact hitems j hj
      · exact hnew j hj

/-- The items of the rules of `expanded` are among the items, and the items
that are not pending have the non-terminal behind their dots expanded. -/
structure Swept (g : Grammar) (pending items : List Item) (expanded : List Symbol) : Prop where
  visited : ∀ i ∈ items, i ∈ pending ∨ ∀ x, i.nonterminal? = some x → x ∈ expanded
  covered : ∀ x ∈ expanded, ∀ r ∈ g.rulesFor x, (Item.ofRule r).text ∈ items.map (·.text)

theorem Swept.skip {i : Item} {pending items : List Item} {expanded : List Symbol}
    (h : g.Swept (i :: pending) items expanded)
    (hi : ∀ x, i.nonterminal? = some x → x ∈ expanded) : g.Swept pending items expanded := by
  refine ⟨fun j hj => ?_, h.covered⟩
  rcases h.visited j hj with hj | hj
  · rcases List.mem_cons.mp hj with rfl | hj
    · exact .inr hi
    · exact .inl hj
  · exact .inr hj

theorem Swept.expand {i : Item} {pending items : List Item} {expanded : List Symbol} {x : Symbol}
    (h : g.Swept (i :: pending) items expanded) (hx : i.nonterminal? = some x) :
    g.Swept (pending ++ g.newItems items x) (items ++ g.newItems items x) (expanded ++ [x]) := by
  constructor
  · intro j hj
    rcases List.mem_append.mp hj with hj | hj
    · rcases h.visited j hj with hj | hj
      · rcases List.mem_cons.mp hj with rfl | hj
        · refine .inr fun y hy => ?_
          cases hx.symm.trans hy
          exact List.mem_append_right _ List.mem_cons_self
        · exact .inl (List.mem_append_left _ hj)
      · exact .inr fun y hy => List.mem_append_left _ (hj y hy)
    · exact .inl (List.mem_append_right _ hj)
  · intro y hy r hr
    rw [List.map_append, List.mem_append]
    rcases List.mem_append.mp hy with hy | hy
    · exact .inl (h.covered y hy r hr)
    · rw [List.mem_singleton.mp hy] at hr
      exact text_mem_fresh _ (List.mem_map.mpr ⟨r, hr, rfl⟩)

theorem swept_sweep (pending items : List Item) (expanded : List Symbol)
    (h : g.Swept pending items expanded) :
    g.Swept [] (g.sweep pending items expanded).items
      (g.sweep pending items expanded).expanded := by
  fun_induction sweep g pending items expanded with
  | case1 => exact h
  -- nothing to expand: no non-terminal behind the dot, or one expanded before
  | case2 _ _ _ _ hx ih => exact ih (h.skip fun y hy => by rw [hx] at hy; cases hy)
  | case3 _ _ _ _ _ hx hmem ih =>
    exact ih (h.skip fun y hy => by cases hx.symm.trans hy; exact hmem)
  | case4 _ _ _ _ _ hx _ ih => exact ih (h.expand hx)

/-! ## The closure -/

theorem swept_expansion (items : List Item) :
    g.Swept [] (g.expansion items).items (g.expansion items).expanded :=
  swept_sweep items items [] ⟨fun _ hi => .inl hi, fun _ hx => absurd hx List.not_mem_nil⟩

theorem prefix_closure (s : State) : s.items <+: (g.closure s).items :=
  prefix_sweep s.items s.items []

theorem inClosure_of_mem_closure {s : State} : ∀ i ∈ (g.closure s).items, g.InClosure s.items i :=
  inClosure_of_sweep s.items s.items [] (fun _ hi => .kernel hi) (fun _ hi => .kernel hi)

/-- What the closure of the state would add is there, as far as texts go. -/
def Closed (g : Grammar) (s : State) : Prop :=
  ∀ i ∈ s.items, ∀ x, i.nonterminal? = some x → ∀ r ∈ g.rulesFor x,
    ∃ j ∈ s.items, j.text = (Item.ofRule r).text

theorem closed_closure (s : State) : g.Closed (g.closure s) := by
  intro i hi x hx r hr
  have h : g.Swept [] (g.closure s).items (g.expansion s.items).expanded := swept_expansion s.items
  rcases h.visited i hi with hi | hi
  · exact absurd hi List.not_mem_nil
  · exact List.mem_map.mp (h.covered x (hi x hx) r hr)

theorem fresh_eq_nil {seen : List String} {l : List Item} (h : ∀ i ∈ l, i.text ∈ seen) :
    Item.fresh seen l = [] := by
  induction l with
  | nil => rfl
  | cons i l ih =>
    rw [Item.fresh, if_pos (h i List.mem_cons_self)]
    exact ih fun j hj => h j (List.mem_cons_of_mem _ hj)

/-- A sweep that meets no item with anything new to bring in changes nothing. -/
theorem sweep_of_closed (pending items : List Item) (expanded : List Symbol)
    (h : ∀ i ∈ pending, ∀ x, i.nonterminal? = some x → ∀ r ∈ g.rulesFor x,
      (Item.ofRule r).text ∈ items.map (·.text)) :
    (g.sweep pending items expanded).items = items := by
  fun_induction sweep g pending items expanded with
  | case1 => rfl
  | case2 _ _ _ _ _ ih => exact ih fun j hj => h j (List.mem_cons_of_mem _ hj)
  | case3 _ _ _ _ _ _ _ ih => exact ih fun j hj => h j (List.mem_cons_of_mem _ hj)
  | case4 items expanded i rest x hx _ ih =>
    have hnew : g.newItems items x = [] := by
      refine fresh_eq_nil fun j hj => ?_
      obtain ⟨r, hr, rfl⟩ := List.mem_map.mp hj
      exact h i List.mem_cons_self x hx r hr
    rw [hnew, List.append_nil, List.append_nil] at ih
    rw [hnew, List.append_nil, List.append_nil]
    exact ih fun j hj => h j (List.mem_cons_of_mem _ hj)

/-- A closed state is its own closure. -/
theorem Closed.closure_eq {s : State} (h : g.Closed s) : g.closure s = s := by
  have hitems : (g.expansion s.items).items = s.items := by
    refine sweep_of_closed s.items s.items [] fun i hi x hx r hr => ?_
    exact List.mem_map.mpr (h i hi x hx r hr)
  rw [closure, hitems]

/-- Only the rules matter for what is closed. -/
theorem Closed.of_rules_eq {h : Grammar} (hrules : h.rules = g.rules) {s : State}
    (hs : g.Closed s) : h.Closed s := by
  intro i hi x hx r hr
  rw [rulesFor, hrules] at hr
  exact hs i hi x hx r hr

/-- Where no non-terminal is behind a dot, there is nothing to add. -/
theorem closure_of_terminals {s : State} (h : ∀ i ∈ s.items, i.nonterminal? = none) :
    g.closure s = s := by
  refine Closed.closure_eq fun i hi x hx => ?_
  rw [h i hi] at hx
  cases hx

/-- The key does not depend on the number. -/
theorem key_goto (s : State) (x : Symbol) (n m : Int) :
    (g.goto s x n).key = (g.goto s x m).key := rfl

theorem text_mem_shifted {s : State} {i : Item} {x : Symbol} (hi : i ∈ s.items)
    (hx : i.next? = some x) : i.advanced.text ∈ (shifted s x).map (·.text) := by
  have hmem : i.advanced ∈ (s.items.filter fun j => j.next? = some x).map (·.advanced) :=
    List.mem_map.mpr ⟨i, List.mem_filter.mpr ⟨hi, decide_eq_true hx⟩, rfl⟩
  exact (text_mem_fresh [] hmem).resolve_left List.not_mem_nil

theorem text_mem_goto {s : State} {i : Item} {x : Symbol} (hi : i ∈ s.items)
    (hx : i.next? = some x) (n : Int) : i.advanced.text ∈ (g.goto s x n).key := by
  obtain ⟨j, hj, htext⟩ := List.mem_map.mp (text_mem_shifted hi hx)
  exact State.mem_key.mpr ⟨j, (prefix_closure (kernel s x n)).subset hj, htext⟩

theorem goto_ne_nil {s : State} {i : Item} {x : Symbol} (hi : i ∈ s.items)
    (hx : i.next? = some x) (n : Int) : (g.goto s x n).items ≠ [] := by
  obtain ⟨j, hj, -⟩ := State.mem_key.mp (text_mem_goto (g := g) hi hx n)
  exact List.ne_nil_of_mem hj

/-! ## Items with the dot in the body -/

theorem closure?_eq_ok {s : State} (h : ∀ i ∈ s.items, i.InBody) :
    g.closure? s = (.ok (g.closure s), g.closureLog s) := by
  rw [closure?, State.fault?_eq_none h]

theorem goto?_eq_ok {s : State} (h : ∀ i ∈ s.items, i.InBody) (x : Symbol) (number : Int) :
    g.goto? s (some x) number = (.ok (g.goto s x number), g.closureLog (kernel s x number)) := by
  have hfault : s.items.findSome? (shiftFault? (some x)) = none := by
    rw [List.findSome?_eq_none_iff]
    intro i hi
    rw [shiftFault?, (h i hi).fault?_eq_none]
    rfl
  simp only [goto?, hfault]

theorem Within.inBody {s : State} (hs : g.Within s) : ∀ i ∈ s.items, i.InBody := by
  intro i hi
  obtain ⟨r, -, n, hn, rfl⟩ := mem_items.mp (hs i hi)
  exact Item.inBody_ofRuleAt hn

/-! ## Items that their texts tell apart -/

theorem proper_of_mem_itemsFor (hg : ∀ r ∈ g.rules, r.Plain) {x : Symbol} :
    ∀ i ∈ g.itemsFor x, i.Proper := by
  intro i hi
  obtain ⟨r, hr, -, rfl⟩ := mem_itemsFor.mp hi
  exact Item.proper_ofRule (hg r hr)

theorem InClosure.proper (hg : ∀ r ∈ g.rules, r.Plain) {kernel : List Item}
    (hk : ∀ i ∈ kernel, i.Proper) {i : Item} (h : g.InClosure kernel i) : i.Proper := by
  induction h with
  | kernel hi => exact hk _ hi
  | rule _ _ hr _ => exact Item.proper_ofRule (hg _ (mem_rulesFor.mp hr).1)

theorem mem_closure (hg : ∀ r ∈ g.rules, r.Plain) {s : State} (hs : ∀ i ∈ s.items, i.Proper)
    {i : Item} : i ∈ (g.closure s).items ↔ g.InClosure s.items i := by
  constructor
  · exact inClosure_of_mem_closure i
  · intro h
    induction h with
    | kernel hi => exact (prefix_closure s).subset hi
    | @rule i x r _ hx hr ih =>
      obtain ⟨j, hj, htext⟩ := closed_closure s i ih x hx r hr
      have hjp := (inClosure_of_mem_closure j hj).proper hg hs
      rwa [hjp.eq_of_text_eq (Item.proper_ofRule (hg r (mem_rulesFor.mp hr).1)) htext] at hj

theorem mem_shifted {s : State} (hs : ∀ i ∈ s.items, i.Proper) {x : Symbol} {j : Item} :
    j ∈ shifted s x ↔ ∃ i ∈ s.items, i.next? = some x ∧ j = i.advanced := by
  have hmem : ∀ {k : Item}, k ∈ (s.items.filter fun i => i.next? = some x).map (·.advanced) ↔
      ∃ i ∈ s.items, i.next? = some x ∧ k = i.advanced := by
    intro k
    simp only [List.mem_map, List.mem_filter, decide_eq_true_eq, and_assoc]
    exact ⟨fun ⟨i, hi, hx, he⟩ => ⟨i, hi, hx, he.symm⟩, fun ⟨i, hi, hx, he⟩ => ⟨i, hi, hx, he.symm⟩⟩
  have hproper : ∀ {k : Item}, (∃ i ∈ s.items, i.next? = some x ∧ k = i.advanced) → k.Proper := by
    rintro _ ⟨i, hi, hx, rfl⟩
    exact (hs i hi).advanced hx
  constructor
  · intro h
    exact hmem.mp (fresh_subset h)
  · intro h
    rcases text_mem_fresh [] (hmem.mpr h) with hk | hk
    · exact absurd hk List.not_mem_nil
    · obtain ⟨k, hk, htext⟩ := List.mem_map.mp hk
      rwa [(hproper (hmem.mp (fresh_subset hk))).eq_of_text_eq (hproper h) htext] at hk

theorem proper_of_mem_shifted {s : State} (hs : ∀ i ∈ s.items, i.Proper) {x : Symbol} :
    ∀ j ∈ shifted s x, j.Proper := by
  intro j hj
  obtain ⟨i, hi, hx, rfl⟩ := (mem_shifted hs).mp hj
  exact (hs i hi).advanced hx

theorem mem_goto (hg : ∀ r ∈ g.rules, r.Plain) {s : State} (hs : ∀ i ∈ s.items, i.Proper)
    {x : Symbol} {n : Int} {j : Item} :
    j ∈ (g.goto s x n).items ↔ g.InClosure (shifted s x) j :=
  mem_closure hg (s := kernel s x n) (proper_of_mem_shifted hs)

theorem key_eq_of_mem_iff {s t : State} (h : ∀ i, i ∈ s.items ↔ i ∈ t.items) : s.key = t.key := by
  apply SortedSet.ext
  intro text
  simp only [State.mem_key, h]

/-- Among proper items a text is that of one item only. -/
theorem text_mem_key_iff {s : State} (hs : ∀ i ∈ s.items, i.Proper) {i : Item} (hi : i.Proper) :
    i.text ∈ s.key ↔ i ∈ s.items := by
  constructor
  · intro h
    obtain ⟨j, hj, htext⟩ := State.mem_key.mp h
    rwa [(hs j hj).eq_of_text_eq hi htext] at hj
  · exact fun h => State.mem_key.mpr ⟨i, h, rfl⟩

/-- States of proper items with the same key hold the same items. -/
theorem mem_iff_of_key_eq {s t : State} (hs : ∀ i ∈ s.items, i.Proper)
    (ht : ∀ i ∈ t.items, i.Proper) (h : s.key = t.key) (i : Item) : i ∈ s.items ↔ i ∈ t.items := by
  constructor
  · intro hi
    rwa [← text_mem_key_iff ht (hs i hi), ← h, text_mem_key_iff hs (hs i hi)]
  · intro hi
    rwa [← text_mem_key_iff hs (ht i hi), h, text_mem_key_iff ht (ht i hi)]

theorem Within.proper (hg : ∀ r ∈ g.rules, r.Plain) {s : State} (hs : g.Within s) :
    ∀ i ∈ s.items, i.Proper := by
  intro i hi
  obtain ⟨r, hr, n, hn, rfl⟩ := mem_items.mp (hs i hi)
  exact Item.proper_ofRuleAt (hg r hr) hn

end Grammar

end LRZero
