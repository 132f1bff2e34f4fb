import LRZero.Proofs.ViablePrefix

/-!
# Closure and goto of a union

The search keeps one state for each key and never looks at another with the
same key, which is sound since all that it does next depends on the key alone.
More than that is true: what a closure brings in is brought in by one item of
its kernel, and what a goto shifts comes from one item of the state.  So for
items that their texts tell apart, the closure and the goto of a state with the
items of two others have the items of both closures and of both gotos, in
whatever order and however often the three states list them.

Main statement: `goto_union`.
-/

namespace LRZero.Grammar

variable {g : Grammar} {s t u : State} {i : Item} {x : Symbol}

/-! ## Keys -/

/-- A union of keys is a union of items, when texts tell them apart. -/
theorem mem_iff_of_key_union (hs : ∀ i ∈ s.items, i.Proper) (ht : ∀ i ∈ t.items, i.Proper)
    (hu : ∀ i ∈ u.items, i.Proper) (h : u.key = s.key ∪ t.key) (i : Item) :
    i ∈ u.items ↔ i ∈ s.items ∨ i ∈ t.items := by
  have hiff : i.Proper → (i ∈ u.items ↔ i ∈ s.items ∨ i ∈ t.items) := by
    intro hi
    rw [← text_mem_key_iff hu hi, ← text_mem_key_iff hs hi, ← text_mem_key_iff ht hi, h,
      SortedSet.mem_union]
  constructor
  · exact fun hi => (hiff (hu i hi)).mp hi
  · rintro (hi | hi)
    · exact (hiff (hs i hi)).mpr (.inl hi)
    · exact (hiff (ht i hi)).mpr (.inr hi)

theorem key_union_of_mem_iff (h : ∀ i, i ∈ u.items ↔ i ∈ s.items ∨ i ∈ t.items) :
    u.key = s.key ∪ t.key := by
  apply SortedSet.ext
  intro text
  simp only [SortedSet.mem_union, State.mem_key, h, or_and_right, exists_or]

/-! ## Items -/

/-- What the closure of a union holds is brought in from one side. -/
theorem inClosure_union {kernel left right : List Item}
    (h : ∀ j, j ∈ kernel ↔ j ∈ left ∨ j ∈ right) :
    g.InClosure kernel i ↔ g.InClosure left i ∨ g.InClosure right i := by
  constructor
  · intro hi
    induction hi with
    | kernel hi =>
      rcases (h _).mp hi with hi | hi
      · exact .inl (.kernel hi)
      · exact .inr (.kernel hi)
    | rule _ hx hr ih =>
      rcases ih with hi | hi
      · exact .inl (.rule hi hx hr)
      · exact .inr (.rule hi hx hr)
  · rintro (hi | hi)
    · exact hi.mono (fun _ hr => hr) fun j hj => .kernel ((h j).mpr (.inl hj))
    · exact hi.mono (fun _ hr => hr) fun j hj => .kernel ((h j).mpr (.inr hj))

section

variable (hs : ∀ i ∈ s.items, i.Proper) (ht : ∀ i ∈ t.items, i.Proper)
  (hu : ∀ i ∈ u.items, i.Proper) (h : ∀ i, i ∈ u.items ↔ i ∈ s.items ∨ i ∈ t.items)
include hs ht hu h

theorem mem_shifted_union (x : Symbol) (i : Item) :
    i ∈ shifted u x ↔ i ∈ shifted s x ∨ i ∈ shifted t x := by
  simp only [mem_shifted hu, mem_shifted hs, mem_shifted ht, h, or_and_right, exists_or]

variable (hg : ∀ r ∈ g.rules, r.Plain)
include hg

theorem key_closure_union : (g.closure u).key = (g.closure s).key ∪ (g.closure t).key := by
  refine key_union_of_mem_iff fun i => ?_
  rw [mem_closure hg hu, mem_closure hg hs, mem_closure hg ht]
  exact inClosure_union h

theorem key_goto_union (x : Symbol) (k m n : Int) :
    (g.goto u x k).key = (g.goto s x m).key ∪ (g.goto t x n).key := by
  refine key_union_of_mem_iff fun i => ?_
  rw [mem_goto hg hu, mem_goto hg hs, mem_goto hg ht]
  exact inClosure_union (mem_shifted_union hs ht hu h x)

end

/-- Closure and goto in a grammar of plain symbols, for states of items that
their texts tell apart.  They are never refused.  Where the key of a state is
the union of two keys, the key of its closure is the union of those of the two
closures, and the same holds of the gotos, whatever the symbol.  States with the
same key have closures with the same key and gotos with the same key. -/
theorem goto_union (g : Grammar) (hg : g.Plain) (s t u : State) (hs : ∀ i ∈ s.items, i.Proper)
    (ht : ∀ i ∈ t.items, i.Proper) (hu : ∀ i ∈ u.items, i.Proper) :
    (∀ v ∈ [s, t, u], (g.closure? v).1 = .ok (g.closure v) ∧
      ∀ x n, (g.goto? v (some x) n).1 = .ok (g.goto v x n)) ∧
    (u.key = s.key ∪ t.key →
      (g.closure u).key = (g.closure s).key ∪ (g.closure t).key ∧
      ∀ x k m n, (g.goto u x k).key = (g.goto s x m).key ∪ (g.goto t x n).key) ∧
    (s.key = t.key →
      (g.closure s).key = (g.closure t).key ∧ ∀ x m n, (g.goto s x m).key = (g.goto t x n).key) := by
  refine ⟨fun v hv => ?_, fun hkey => ?_, fun hkey => ?_⟩
  · have hproper : ∀ i ∈ v.items, i.Proper := by
      rcases List.mem_cons.mp hv with rfl | hv
      · exact hs
      rcases List.mem_cons.mp hv with rfl | hv
      · exact ht
      · rw [List.mem_singleton.mp hv]
        exact hu
    have hinBody : ∀ i ∈ v.items, i.InBody := fun i hi => (hproper i hi).inBody
    exact ⟨congrArg Prod.fst (closure?_eq_ok hinBody),
      fun x n => congrArg Prod.fst (goto?_eq_ok hinBody x n)⟩
  · have hitems := mem_iff_of_key_union hs ht hu hkey
    exact ⟨key_closure_union hs ht hu hitems hg.2, key_goto_union hs ht hu hitems hg.2⟩
  -- with the same items, one is the union of the other with itself
  · have hitems : ∀ i, i ∈ s.items ↔ i ∈ t.items ∨ i ∈ t.items := by
      intro i
      rw [or_self, mem_iff_of_key_eq hs ht hkey]
    have hself : ∀ key : SortedSet String, key ∪ key = key :=
      fun _ => SortedSet.union_eq_left.mpr fun _ h => h
    refine ⟨?_, fun x m n => ?_⟩
    · rw [key_closure_union ht ht hs hitems hg.2, hself]
    · rw [key_goto_union ht ht hs hitems hg.2 x m n n, hself]

/-- The rule of a list that goes on, with the dot at a place. -/
def listItem (n : Nat) : Item := .ofRuleAt ⟨"LIST", ["item", "LIST"]⟩ n

/-- The items of two states in another order, one of them twice: over an item
of the list the goto is the union of the two gotos. -/
theorem goto_union_lists :
    lists.Plain ∧ (∀ i ∈ [listItem 0], i.Proper) ∧ (∀ i ∈ [listItem 1], i.Proper) ∧
      (∀ i ∈ [listItem 1, listItem 0, listItem 1], i.Proper) ∧
      (lists.goto ⟨2, [listItem 1, listItem 0, listItem 1]⟩ "item" 5).key =
        (lists.goto ⟨0, [listItem 0]⟩ "item" 3).key ∪ (lists.goto ⟨1, [listItem 1]⟩ "item" 4).key := by
  have hplain : lists.Plain := by decide
  have hproper : ∀ n ≤ 2, (listItem n).Proper := fun n hn => Item.proper_ofRuleAt (by decide) hn
  have hall : ∀ i ∈ [listItem 1, listItem 0, listItem 1], i.Proper := by
    simp only [List.forall_mem_cons, List.not_mem_nil, false_implies, implies_true, and_true]
    exact ⟨hproper 1 (by decide), hproper 0 (by decide), hproper 1 (by decide)⟩
  have hfirst : ∀ i ∈ [listItem 0], i.Proper := fun i hi => hall i (by simp_all)
  have hsecond : ∀ i ∈ [listItem 1], i.Proper := fun i hi => hall i (by simp_all)
  obtain ⟨-, hunion, -⟩ := goto_union lists hplain ⟨0, [listItem 0]⟩ ⟨1, [listItem 1]⟩
    ⟨2, [listItem 1, listItem 0, listItem 1]⟩ hfirst hsecond hall
  have hkey : State.key ⟨2, [listItem 1, listItem 0, listItem 1]⟩ =
      State.key ⟨0, [listItem 0]⟩ ∪ State.key ⟨1, [listItem 1]⟩ := by decide
  exact ⟨hplain, hfirst, hsecond, hall, (hunion hkey).2 "item" 5 3 4⟩

end LRZero.Grammar
