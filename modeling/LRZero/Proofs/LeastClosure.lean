import LRZero.Proofs.Derivation
import LRZero.Proofs.ItemClosure

/-!
# The closure is the least closed extension

What a closure does to a list of items, item by item.  A list `Extends` a
kernel when it comes from the kernel by appending, one at a time, first items
of rules that an earlier item calls for and that are written like none before
them.  The closure is such a list to which nothing is left to append, so it is
contained in every closed set of items around the kernel.  The non-terminals
that are expanded are those behind the dots of the final list, each once, in
the order of the items (`expanded_expansion`).

The sweep visits the items of a list while it grows.  Going over the list in
rounds, each of which visits only what is there when it begins, until one adds
nothing, comes to the same (`rounds_expansion`).

Main statement: `closure_least_extension`.
-/

namespace LRZero

namespace Grammar

variable {g : Grammar} {kernel items pending : List Item} {expanded : List Symbol} {i : Item}
  {x : Symbol}

/-! ## Items appended one at a time -/

/-- `Extends g kernel items`: behind the kernel each item is the first one of a
rule, called for by an item before it, and written like no item before it. -/
inductive Extends (g : Grammar) (kernel : List Item) : List Item → Prop
  | kernel : Extends g kernel kernel
  | snoc {items : List Item} {i : Item} {r : Rule} : Extends g kernel items → i ∈ items →
      i.nonterminal? = some r.result → r ∈ g.rules → (Item.ofRule r).text ∉ items.map (·.text) →
      Extends g kernel (items ++ [.ofRule r])

theorem Extends.append_fresh {l : List Item} (hl : ∀ j ∈ l, j ∈ g.itemsFor x) :
    ∀ {items : List Item} {seen : List String}, g.Extends kernel items → i ∈ items →
      i.nonterminal? = some x → (∀ t, t ∈ seen ↔ t ∈ items.map (·.text)) →
      g.Extends kernel (items ++ Item.fresh seen l) := by
  induction l with
  | nil =>
    intro items seen h _ _ _
    rw [Item.fresh, List.append_nil]
    exact h
  | cons j l ih =>
    intro items seen h hi hx hseen
    have hrest : ∀ k ∈ l, k ∈ g.itemsFor x := fun k hk => hl k (List.mem_cons_of_mem _ hk)
    rw [Item.fresh]
    split
    · exact ih hrest h hi hx hseen
    · next hj =>
      obtain ⟨r, hr, hresult, rfl⟩ := mem_itemsFor.mp (hl j List.mem_cons_self)
      have hnew : (Item.ofRule r).text ∉ items.map (·.text) := fun hmem => hj ((hseen _).mpr hmem)
      rw [List.append_cons]
      refine ih hrest (h.snoc hi (hresult ▸ hx) hr hnew) (List.mem_append_left _ hi) hx fun t => ?_
      rw [List.mem_cons, hseen, List.map_append, List.mem_append, List.map_singleton,
        List.mem_singleton, or_comm]

theorem Extends.append_newItems (h : g.Extends kernel items) (hi : i ∈ items)
    (hx : i.nonterminal? = some x) : g.Extends kernel (items ++ g.newItems items x) :=
  h.append_fresh (fun _ hj => hj) hi hx fun _ => .rfl

theorem extends_sweep (pending items : List Item) (expanded : List Symbol)
    (hpending : ∀ i ∈ pending, i ∈ items) (h : g.Extends kernel items) :
    g.Extends kernel (g.sweep pending items expanded).items := by
  fun_induction sweep g pending items expanded with
  | case1 => exact h
  | case2 _ _ _ _ _ ih => exact ih (fun j hj => hpending j (List.mem_cons_of_mem _ hj)) h
  | case3 _ _ _ _ _ _ _ ih => exact ih (fun j hj => hpending j (List.mem_cons_of_mem _ hj)) h
  | case4 items expanded i rest x hx _ ih =>
    refine ih (fun j hj => ?_) (h.append_newItems (hpending i List.mem_cons_self) hx)
    rcases List.mem_append.mp hj with hj | hj
    · exact List.mem_append_left _ (hpending j (List.mem_cons_of_mem _ hj))
    · exact List.mem_append_right _ hj

theorem extends_closure (s : State) : g.Extends s.items (g.closure s).items :=
  extends_sweep s.items s.items [] (fun _ hi => hi) .kernel

/-- What is before an appended item calls for it, and is written otherwise. -/
theorem Extends.exists_call (h : g.Extends kernel items) :
    ∀ {l m : List Item}, items = kernel ++ (l ++ i :: m) →
      ∃ r ∈ g.rules, i = .ofRule r ∧ i.text ∉ (kernel ++ l).map (·.text) ∧
        ∃ j ∈ kernel ++ l, j.nonterminal? = some r.result := by
  induction h with
  | kernel =>
    intro l m he
    have hnil : l ++ i :: m = [] := List.append_right_eq_self.mp he.symm
    exact absurd hnil (List.append_ne_nil_of_right_ne_nil _ (List.cons_ne_nil _ _))
  | @snoc items j r _ hj hx hr hnew ih =>
    intro l m he
    rcases List.eq_nil_or_concat' m with rfl | ⟨m, k, rfl⟩
    · rw [← List.append_assoc] at he
      obtain ⟨rfl, hlast⟩ := List.append_inj' he rfl
      cases hlast
      exact ⟨r, hr, rfl, hnew, j, hj, hx⟩
    · rw [← List.cons_append, ← List.append_assoc, ← List.append_assoc] at he
      obtain ⟨he, -⟩ := List.append_inj' he rfl
      rw [List.append_assoc] at he
      exact ih he

/-- The closure brings in no faulty items. -/
theorem InClosure.fault?_eq_none (hkernel : ∀ j ∈ kernel, j.fault? = none)
    (h : g.InClosure kernel i) : i.fault? = none := by
  cases h with
  | kernel hi => exact hkernel _ hi
  | rule _ _ _ => exact (Item.inBody_ofRuleAt (Nat.zero_le _)).fault?_eq_none

/-- A closed set of items that contains the kernel contains all that the kernel
brings in. -/
theorem InClosure.mem_of_closed {u : List Item} (hfaults : ∀ j ∈ kernel, j.fault? = none)
    (hkernel : ∀ j ∈ kernel, j ∈ u)
    (hclosed : ∀ j ∈ u, ∀ x, j.next = .ok (some x) → x.isNonterminal →
      ∀ r ∈ g.rulesFor x, .ofRule r ∈ u)
    (h : g.InClosure kernel i) : i ∈ u := by
  induction h with
  | kernel hi => exact hkernel _ hi
  | rule hi hx hr ih =>
    obtain ⟨hnext, hn⟩ := Item.nonterminal?_eq_some.mp hx
    have hok := Item.next_eq_ok_iff.mpr ⟨hi.fault?_eq_none hfaults, hnext⟩
    exact hclosed _ ih _ hok hn _ hr

/-! ## What is expanded -/

/-- The items of the list are those visited and those pending.  What has been
expanded are the non-terminals behind the dots of the visited ones, in order. -/
theorem expanded_sweep (pending items : List Item) (expanded : List Symbol) :
    ∀ {visited : List Item}, items = visited ++ pending →
      expanded = (visited.filterMap (·.nonterminal?)).eraseDups →
      (g.sweep pending items expanded).expanded =
        ((g.sweep pending items expanded).items.filterMap (·.nonterminal?)).eraseDups := by
  fun_induction sweep g pending items expanded with
  | case1 items expanded =>
    intro visited hitems h
    rw [hitems, List.append_nil]
    exact h
  | case2 items expanded i rest hx ih =>
    intro visited hitems h
    refine ih (hitems.trans (List.append_cons ..)) ?_
    rw [List.filterMap_append, List.filterMap_cons_none hx, List.filterMap_nil, List.append_nil]
    exact h
  | case3 items expanded i rest x hx hmem ih =>
    intro visited hitems h
    refine ih (hitems.trans (List.append_cons ..)) ?_
    rw [h, List.mem_eraseDups] at hmem
    rw [List.filterMap_append, List.filterMap_cons_some hx, List.filterMap_nil,
      eraseDups_concat_of_mem hmem]
    exact h
  | case4 items expanded i rest x hx hmem ih =>
    intro visited hitems h
    have hsplit : items ++ g.newItems items x =
        visited ++ [i] ++ (rest ++ g.newItems items x) := by
      rw [← List.append_assoc, ← List.append_cons, ← hitems]
    refine ih hsplit ?_
    rw [h, List.mem_eraseDups] at hmem
    rw [List.filterMap_append, List.filterMap_cons_some hx, List.filterMap_nil,
      eraseDups_concat_of_not_mem hmem, h]

theorem expanded_expansion (items : List Item) :
    (g.expansion items).expanded =
      ((g.expansion items).items.filterMap (·.nonterminal?)).eraseDups :=
  expanded_sweep items items [] (List.nil_append _).symm rfl

/-! ## Rounds -/

/-- The visit of an item, which expands the non-terminal behind its dot unless
that has been expanded before. -/
def meet (g : Grammar) (e : Expansion) (i : Item) : Expansion :=
  match i.nonterminal? with
  | none => e
  | some x =>
    if x ∈ e.expanded then e else ⟨e.items ++ g.newItems e.items x, e.expanded ++ [x]⟩

/-- A visit of each item that is there at the beginning of the round. -/
def round (g : Grammar) (e : Expansion) : Expansion := e.items.foldl g.meet e

/-- `Rounds g e f`: round after round, the first one that adds no item ends
with `f`. -/
inductive Rounds (g : Grammar) : Expansion → Expansion → Prop
  | last {e : Expansion} : (g.round e).items = e.items → Rounds g e (g.round e)
  | next {e f : Expansion} : (g.round e).items ≠ e.items → Rounds g (g.round e) f → Rounds g e f

theorem meet_cases (e : Expansion) (i : Item) :
    ((∀ x, i.nonterminal? = some x → x ∈ e.expanded) ∧ g.meet e i = e) ∨
      ∃ x, i.nonterminal? = some x ∧ x ∉ e.expanded ∧
        g.meet e i = ⟨e.items ++ g.newItems e.items x, e.expanded ++ [x]⟩ := by
  cases hx : i.nonterminal? with
  | none => exact .inl ⟨nofun, by simp only [meet, hx]⟩
  | some x =>
    by_cases hmem : x ∈ e.expanded
    · refine .inl ⟨fun y hy => ?_, by simp only [meet, hx, if_pos hmem]⟩
      cases hy
      exact hmem
    · exact .inr ⟨x, rfl, hmem, by simp only [meet, hx, if_neg hmem]⟩

/-- Items whose non-terminals have been expanded are visited in vain. -/
theorem foldl_meet_of_expanded {l : List Item} {e : Expansion}
    (h : ∀ i ∈ l, ∀ x, i.nonterminal? = some x → x ∈ e.expanded) : l.foldl g.meet e = e := by
  induction l with
  | nil => rfl
  | cons i l ih =>
    have hmeet : g.meet e i = e := by
      rcases meet_cases e i with ⟨-, he⟩ | ⟨x, hx, hmem, -⟩
      · exact he
      · exact absurd (h i List.mem_cons_self x hx) hmem
    rw [List.foldl_cons, hmeet]
    exact ih fun j hj => h j (List.mem_cons_of_mem _ hj)

theorem mem_expanded_foldl_meet (l : List Item) :
    ∀ {e : Expansion}, x ∈ e.expanded ∨ (∃ i ∈ l, i.nonterminal? = some x) →
      x ∈ (l.foldl g.meet e).expanded := by
  induction l with
  | nil =>
    rintro e (h | ⟨i, hi, -⟩)
    · exact h
    · exact absurd hi List.not_mem_nil
  | cons i l ih =>
    intro e h
    refine ih ?_
    rcases h with h | ⟨j, hj, hx⟩
    · rcases meet_cases e i with ⟨-, he⟩ | ⟨y, -, -, he⟩
      · rw [he]
        exact .inl h
      · rw [he]
        exact .inl (List.mem_append_left _ h)
    · rcases List.mem_cons.mp hj with rfl | hj
      · rcases meet_cases e j with ⟨hexpanded, he⟩ | ⟨y, hy, -, he⟩
        · rw [he]
          exact .inl (hexpanded x hx)
        · rw [he]
          cases hx.symm.trans hy
          exact .inl (List.mem_append_right _ List.mem_cons_self)
      · exact .inr ⟨j, hj, hx⟩

/-- A sweep visits its first items like a part of a round, and what they add
comes behind what is pending. -/
theorem exists_added (l : List Item) :
    ∀ e : Expansion, ∃ added, (l.foldl g.meet e).items = e.items ++ added ∧
      ∀ pending, g.sweep (l ++ pending) e.items e.expanded =
        g.sweep (pending ++ added) (l.foldl g.meet e).items (l.foldl g.meet e).expanded := by
  induction l with
  | nil =>
    intro e
    refine ⟨[], (List.append_nil _).symm, fun pending => ?_⟩
    rw [List.append_nil]
    rfl
  | cons i l ih =>
    intro e
    obtain ⟨added, hitems, hsweep⟩ := ih (g.meet e i)
    rw [List.foldl_cons]
    rcases meet_cases e i with ⟨hexpanded, he⟩ | ⟨x, hx, hmem, he⟩
    · rw [he] at hitems hsweep ⊢
      refine ⟨added, hitems, fun pending => ?_⟩
      rw [← hsweep, List.cons_append, sweep]
      cases hx : i.nonterminal? with
      | none => rfl
      | some x => simp only [if_pos (hexpanded x hx)]
    · rw [he] at hitems hsweep ⊢
      refine ⟨g.newItems e.items x ++ added, hitems.trans (List.append_assoc ..), fun pending => ?_⟩
      rw [← List.append_assoc, ← hsweep, List.cons_append, sweep]
      simp only [hx, if_neg hmem, List.append_assoc]

/-- Between two rounds the sweep has visited what was there when the last one
began.  The next one visits these items in vain and then those that are
pending. -/
theorem sweep_round {e : Expansion} {visited : List Item} (h : e.items = visited ++ pending)
    (hvisited : ∀ i ∈ visited, ∀ x, i.nonterminal? = some x → x ∈ e.expanded) :
    ∃ added, (g.round e).items = e.items ++ added ∧
      g.sweep pending e.items e.expanded = g.sweep added (g.round e).items (g.round e).expanded := by
  have hround : g.round e = pending.foldl g.meet e := by
    rw [round, h, List.foldl_append, foldl_meet_of_expanded hvisited]
  obtain ⟨added, hitems, hsweep⟩ := exists_added (g := g) pending e
  have hall := hsweep []
  rw [List.append_nil, List.nil_append] at hall
  rw [hround]
  exact ⟨added, hitems, hall⟩

/-- The rounds end where the sweep ends.  Each but the last brings the list
nearer to what it is in the end. -/
theorem rounds_sweep {e : Expansion} {visited pending : List Item}
    (h : e.items = visited ++ pending)
    (hvisited : ∀ i ∈ visited, ∀ x, i.nonterminal? = some x → x ∈ e.expanded) :
    g.Rounds e (g.sweep pending e.items e.expanded) := by
  obtain ⟨added, hitems, hsweep⟩ := sweep_round h hvisited
  rw [hsweep]
  cases added with
  | nil =>
    rw [List.append_nil] at hitems
    rw [sweep]
    exact .last hitems
  | cons j added =>
    have hlonger : e.items.length < (g.round e).items.length := by
      rw [hitems, List.length_append, List.length_cons]
      omega
    have hend : (g.round e).items.length ≤ (g.sweep pending e.items e.expanded).items.length := by
      rw [hsweep]
      exact (prefix_sweep _ _ _).length_le
    refine .next (fun he => ?_) (rounds_sweep hitems fun i hi x hx => ?_)
    · rw [he] at hlonger
      exact Nat.lt_irrefl _ hlonger
    · exact mem_expanded_foldl_meet e.items (.inr ⟨i, hi, hx⟩)
termination_by (g.sweep pending e.items e.expanded).items.length - e.items.length
decreasing_by
  rw [hsweep] at hend ⊢
  omega

theorem rounds_expansion (items : List Item) : g.Rounds ⟨items, []⟩ (g.expansion items) := by
  have hnone : ∀ i ∈ ([] : List Item), ∀ x, i.nonterminal? = some x → x ∈ ([] : List Symbol) :=
    fun _ hi => absurd hi List.not_mem_nil
  exact rounds_sweep (List.nil_append items).symm hnone

/-! ## The closure of a state -/

/-- The closure of any state whose items have next symbols to show.  Its items
stay in front.  Each item behind them is the first one of a rule, is written
like none before it, and has the result of its rule behind the dot of one
before it.  For every non-terminal behind a dot the items of its rules are
there, and a set of items with this property that contains those of the state
contains the whole closure.  What is logged are these non-terminals, each once.
Rounds over the list, as it is when they begin, come to the same end, and a
second closure adds nothing. -/
theorem closure_least_extension (g : Grammar) (s : State)
    (hs : ∀ i ∈ s.items, ∃ x, i.next = .ok x) :
    ∃ (t : State) (added : List Item) (xs : List Symbol),
      g.closure? s = (.ok t, xs.map .expanding) ∧
      t.number = s.number ∧ t.items = s.items ++ added ∧
      (∀ l i m, added = l ++ i :: m →
        ∃ r ∈ g.rules, i = .ofRule r ∧ (∀ j ∈ s.items ++ l, ¬ j.same i) ∧
          r.result.isNonterminal ∧ ∃ j ∈ s.items ++ l, j.next = .ok (some r.result)) ∧
      (∀ i ∈ t.items, ∀ x, i.next = .ok (some x) → x.isNonterminal →
        ∀ r ∈ g.rulesFor x, t.holds (.ofRule r)) ∧
      (∀ u : List Item, (∀ i ∈ s.items, i ∈ u) →
        (∀ i ∈ u, ∀ x, i.next = .ok (some x) → x.isNonterminal → ∀ r ∈ g.rulesFor x, .ofRule r ∈ u) →
          ∀ i ∈ t.items, i ∈ u) ∧
      xs.Nodup ∧ (∀ x, x ∈ xs ↔ x.isNonterminal ∧ ∃ i ∈ t.items, i.next = .ok (some x)) ∧
      g.Rounds ⟨s.items, []⟩ ⟨t.items, xs⟩ ∧
      (g.closure? t).1 = .ok t := by
  have hkernel : ∀ i ∈ s.items, i.fault? = none := by
    intro i hi
    obtain ⟨x, hx⟩ := hs i hi
    exact (Item.next_eq_ok_iff.mp hx).1
  have hfaults : ∀ i ∈ (g.closure s).items, i.fault? = none :=
    fun i hi => (inClosure_of_mem_closure i hi).fault?_eq_none hkernel
  have hnext : ∀ i ∈ (g.closure s).items, ∀ x,
      i.nonterminal? = some x ↔ x.isNonterminal ∧ i.next = .ok (some x) := by
    intro i hi x
    rw [Item.nonterminal?_eq_some, Item.next_eq_ok_iff, and_iff_right (hfaults i hi), and_comm]
  obtain ⟨added, hadded⟩ := prefix_closure (g := g) s
  refine ⟨g.closure s, added, (g.expansion s.items).expanded, ?_, rfl, hadded.symm, ?_, ?_, ?_, ?_,
    ?_, rounds_expansion s.items, ?_⟩
  · rw [closure?, State.fault?, List.findSome?_eq_none_iff.mpr hkernel]
    rfl
  · intro l i m he
    rw [he] at hadded
    obtain ⟨r, hr, rfl, hnew, j, hj, hx⟩ := (extends_closure s).exists_call hadded.symm
    have hj' : j ∈ (g.closure s).items := by
      rw [← hadded, ← List.append_assoc]
      exact List.mem_append_left _ hj
    obtain ⟨hn, hok⟩ := (hnext j hj' _).mp hx
    refine ⟨r, hr, rfl, fun k hk hsame => hnew ?_, hn, j, hj, hok⟩
    exact List.mem_map.mpr ⟨k, hk, of_decide_eq_true hsame⟩
  · intro i hi x hok hn r hr
    obtain ⟨j, hj, htext⟩ := closed_closure s i hi x ((hnext i hi x).mpr ⟨hn, hok⟩) r hr
    exact State.holds_iff.mpr (List.mem_map.mpr ⟨j, hj, htext⟩)
  · intro u hu hclosed i hi
    exact (inClosure_of_mem_closure i hi).mem_of_closed hkernel hu hclosed
  · rw [expanded_expansion]
    exact nodup_eraseDups _
  · intro x
    rw [expanded_expansion, List.mem_eraseDups, List.mem_filterMap]
    constructor
    · rintro ⟨i, hi, hx⟩
      obtain ⟨hn, hok⟩ := (hnext i hi x).mp hx
      exact ⟨hn, i, hi, hok⟩
    · rintro ⟨hn, i, hi, hok⟩
      exact ⟨i, hi, (hnext i hi x).mpr ⟨hn, hok⟩⟩
  · rw [closure?, State.fault?, List.findSome?_eq_none_iff.mpr hfaults, (closed_closure s).closure_eq]

/-- A sum that waits for its last term, the place of the dot told once from the
left and once from the right. -/
def openSum : State :=
  ⟨3, [⟨"EXPR", ["EXPR", "+", "TERM"], 2⟩, ⟨"EXPR", ["EXPR", "+", "TERM"], -1⟩]⟩

/-- The term is expanded once, and the item of its rule is there then. -/
theorem closure_least_extension_openSum :
    (∀ i ∈ openSum.items, ∃ x, i.next = .ok x) ∧
      ∃ (t : State) (added : List Item) (xs : List Symbol),
        sums.closure? openSum = (.ok t, xs.map .expanding) ∧
        t.items = openSum.items ++ added ∧ t.holds (.ofRule ⟨"TERM", ["id"]⟩) ∧ xs.Nodup ∧
        "TERM" ∈ xs ∧ (sums.closure? t).1 = .ok t := by
  have hok : ∀ i ∈ openSum.items, i.next = .ok (some "TERM") := by decide
  have hs : ∀ i ∈ openSum.items, ∃ x, i.next = .ok x := fun i hi => ⟨_, hok i hi⟩
  obtain ⟨t, added, xs, hclosure, -, hitems, -, hclosed, -, hnodup, hxs, -, hagain⟩ :=
    closure_least_extension sums openSum hs
  have hn : Symbol.isNonterminal "TERM" := by decide
  have hfirst : openSum.items.head (by decide) ∈ openSum.items := List.head_mem _
  have hmem := hitems ▸ List.mem_append_left added hfirst
  refine ⟨hs, t, added, xs, hclosure, hitems, ?_, hnodup, ?_, hagain⟩
  · exact hclosed _ hmem "TERM" (hok _ hfirst) hn _ (by decide)
  · exact (hxs "TERM").mpr ⟨hn, _, hmem, hok _ hfirst⟩

end Grammar

end LRZero
