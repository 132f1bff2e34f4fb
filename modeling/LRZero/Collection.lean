import LRZero.Closure
import LRZero.Trace

/-!
# The canonical collection

The states of the automaton are found breadth first.  State 0 is the closure
of the items of the start symbol; then the states are visited in the order
of their numbers, and each symbol behind a dot leads to a state that is
known, if one has the same key, or gets the next number.

The search ends by a pigeonhole.  The items of all states come from the rules
of the grammar, so every key is one of the finitely many subsets of their
texts, and each new state takes one subset more.
-/

namespace LRZero

/-! ## The subsets of a list -/

/-- The sublists of a list. -/
def subsets {α : Type} : List α → List (List α)
  | [] => [[]]
  | a :: l => subsets l ++ (subsets l).map (a :: ·)

theorem filter_mem_subsets {α : Type} (p : α → Bool) : ∀ l : List α, l.filter p ∈ subsets l
  | [] => by simp [subsets]
  | a :: l => by
    have ih := filter_mem_subsets p l
    rw [subsets, List.filter_cons, List.mem_append]
    split
    · exact .inr (List.mem_map.mpr ⟨_, ih, rfl⟩)
    · exact .inl ih

namespace Grammar

/-! ## The items of a grammar -/

/-- The items of all rules, with the dot at every place. -/
def items (g : Grammar) : List Item := g.rules.flatMap (·.items)

/-- The texts of all items of the grammar. -/
def itemTexts (g : Grammar) : SortedSet String := .ofList (g.items.map (·.text))

/-- The items of the state are items of the grammar. -/
def Within (g : Grammar) (s : State) : Prop := ∀ i ∈ s.items, i ∈ g.items

theorem mem_items {g : Grammar} {i : Item} :
    i ∈ g.items ↔ ∃ r ∈ g.rules, ∃ n : Nat, n ≤ r.body.length ∧ i = .ofRuleAt r n := by
  simp only [items, List.mem_flatMap, Rule.items, List.mem_map, List.mem_range,
    Nat.lt_succ_iff]
  constructor
  · rintro ⟨r, hr, n, hn, rfl⟩; exact ⟨r, hr, n, hn, rfl⟩
  · rintro ⟨r, hr, n, hn, rfl⟩; exact ⟨r, hr, n, hn, rfl⟩

theorem itemsFor_subset {g : Grammar} {x : Symbol} {i : Item} (h : i ∈ g.itemsFor x) :
    i ∈ g.items := by
  obtain ⟨r, hr, rfl⟩ := List.mem_map.mp h
  exact mem_items.mpr ⟨r, (List.mem_filter.mp hr).1, 0, Nat.zero_le _, rfl⟩

theorem fresh_subset {seen : List String} {l : List Item} {i : Item}
    (h : i ∈ Item.fresh seen l) : i ∈ l := by
  induction l generalizing seen with
  | nil => exact h
  | cons j l ih =>
    rw [Item.fresh] at h
    split at h
    · exact List.mem_cons_of_mem _ (ih h)
    · rcases List.mem_cons.mp h with rfl | h
      · exact List.mem_cons_self
      · exact List.mem_cons_of_mem _ (ih h)

theorem sweep_within {g : Grammar} (pending items : List Item) (expanded : List Symbol)
    (h : ∀ i ∈ items, i ∈ g.items) : ∀ i ∈ (g.sweep pending items expanded).items, i ∈ g.items := by
  fun_induction sweep g pending items expanded with
  | case1 => exact h
  | case2 _ _ _ _ _ ih => exact ih h
  | case3 _ _ _ _ _ _ _ ih => exact ih h
  | case4 _ _ _ _ _ _ _ ih =>
    apply ih
    intro i hi
    rcases List.mem_append.mp hi with hi | hi
    · exact h i hi
    · exact itemsFor_subset (fresh_subset hi)

theorem advanced_mem_items {g : Grammar} {i : Item} {x : Symbol} (h : i ∈ g.items)
    (hx : i.next? = some x) : i.advanced ∈ g.items := by
  obtain ⟨r, hr, n, hn, rfl⟩ := mem_items.mp h
  rw [Item.next?_ofRuleAt] at hx
  have hlt : n < r.body.length := (List.getElem?_eq_some_iff.mp hx).1
  exact mem_items.mpr ⟨r, hr, n + 1, hlt, by simp [Item.advanced, Item.ofRuleAt]⟩

theorem kernel_within {g : Grammar} {s : State} (h : g.Within s) (x : Symbol) (n : Int) :
    g.Within (kernel s x n) := by
  intro i hi
  obtain ⟨j, hj, rfl⟩ := List.mem_map.mp (fresh_subset hi)
  obtain ⟨hj, hx⟩ := List.mem_filter.mp hj
  exact advanced_mem_items (h j hj) (of_decide_eq_true hx)

theorem goto_within {g : Grammar} {s : State} (h : g.Within s) (x : Symbol) (n : Int) :
    g.Within (g.goto s x n) :=
  sweep_within _ _ _ (kernel_within h x n)

/-- The closure of the items of the start symbol. -/
def startState (g : Grammar) : State := g.closure ⟨0, g.itemsFor g.start⟩

theorem startState_within (g : Grammar) : g.Within g.startState :=
  sweep_within _ _ _ fun _ => itemsFor_subset

/-! ## The states found so far -/

/-- States of the automaton with their keys, in the order of their numbers. -/
structure Known (g : Grammar) where
  states : List State
  keys : List (SortedSet String)
  keys_eq : keys = states.map (·.key)
  within : ∀ s ∈ states, g.Within s

/-- State 0 alone. -/
def Known.start (g : Grammar) : Known g where
  states := [g.startState]
  keys := [g.startState.key]
  keys_eq := rfl
  within := by simpa using g.startState_within

/-- The known states with one more. -/
def Known.push {g : Grammar} (known : Known g) (s : State) (h : g.Within s) : Known g where
  states := known.states ++ [s]
  keys := known.keys ++ [s.key]
  keys_eq := by simp [known.keys_eq]
  within := by
    intro t ht
    rcases List.mem_append.mp ht with ht | ht
    · exact known.within t ht
    · rw [List.mem_singleton.mp ht]; exact h

/-- A key is one of the subsets of the texts of all items. -/
theorem Within.key_mem_subsets {g : Grammar} {s : State} (h : g.Within s) :
    s.key.toList ∈ subsets g.itemTexts.toList := by
  have hkey : g.itemTexts.filter (fun t => decide (t ∈ s.key)) = s.key := by
    apply SortedSet.ext
    intro t
    simp only [SortedSet.mem_filter, decide_eq_true_eq, and_iff_right_iff_imp]
    simp only [itemTexts, State.key, State.texts, SortedSet.mem_ofList, List.mem_map]
    rintro ⟨i, hi, rfl⟩
    exact ⟨i, h i hi, rfl⟩
  rw [← hkey]
  exact filter_mem_subsets _ _

/-- How many sets of items are the key of no known state. -/
def Known.missing {g : Grammar} (known : Known g) : Nat :=
  (subsets g.itemTexts.toList).countP fun texts => decide (texts ∉ known.keys.map (·.toList))

theorem Known.missing_push_lt {g : Grammar} (known : Known g) (s : State) (h : g.Within s)
    (hs : s.key ∉ known.keys) : (known.push s h).missing < known.missing := by
  refine countP_lt_countP (x := s.key.toList) (fun texts _ => ?_) h.key_mem_subsets ?_ ?_
  · simp only [Known.push, List.map_append, List.mem_append]
    grind
  · simp only [decide_eq_true_eq, List.mem_map, not_exists, not_and]
    intro k hk he
    exact hs (SortedSet.toList_inj.mp he ▸ hk)
  · simp [Known.push]

/-! ## Visiting a state -/

/-- What the visit of a state has come to: the states known by then, where
its symbols lead, and the log. -/
structure Visit (g : Grammar) where
  known : Known g
  moves : List (Symbol × Nat)
  log : List Event

/-- The visit with one more symbol followed. -/
def Visit.follow {g : Grammar} (s : State) (hs : g.Within s) (v : Visit g) (x : Symbol) :
    Visit g :=
  let next := v.known.states.length
  let t := g.goto s x next
  let log := v.log ++ g.closureLog (kernel s x next)
  match v.known.keys.idxOf? t.key with
  | some n => ⟨v.known, v.moves ++ [(x, n)], log⟩
  | none => ⟨v.known.push t (goto_within hs x next), v.moves ++ [(x, next)], log ++ [.newState next]⟩

/-- The visit of a state, its symbols followed in the order of the items. -/
def visit {g : Grammar} (known : Known g) (s : State) (hs : g.Within s) : Visit g :=
  s.nextSymbols.foldl (Visit.follow s hs) ⟨known, [], []⟩

theorem Visit.follow_known {g : Grammar} (s : State) (hs : g.Within s) (v : Visit g) (x : Symbol) :
    (v.follow s hs x).known = v.known ∨ (v.follow s hs x).known.missing < v.known.missing := by
  unfold Visit.follow
  dsimp only
  split
  · exact .inl rfl
  · next h => exact .inr (v.known.missing_push_lt _ (goto_within hs x _) (List.idxOf?_eq_none_iff.mp h))

theorem visit_known {g : Grammar} (known : Known g) (s : State) (hs : g.Within s) :
    (visit known s hs).known = known ∨ (visit known s hs).known.missing < known.missing := by
  have : ∀ (xs : List Symbol) (v : Visit g),
      (xs.foldl (Visit.follow s hs) v).known = v.known ∨
        (xs.foldl (Visit.follow s hs) v).known.missing < v.known.missing := by
    intro xs
    induction xs with
    | nil => exact fun v => .inl rfl
    | cons x xs ih =>
      intro v
      rw [List.foldl_cons]
      rcases ih (v.follow s hs x) with h | h <;>
        rcases Visit.follow_known s hs v x with h' | h'
      · exact .inl (h.trans h')
      · exact .inr (by rw [h]; exact h')
      · exact .inr (by rw [h'] at h; exact h)
      · exact .inr (Nat.lt_trans h h')
  exact this s.nextSymbols ⟨known, [], []⟩

/-! ## The search -/

/-- The states of the automaton, the moves from each of them, and the log. -/
structure Search where
  states : List State
  moves : List (List (Symbol × Nat))
  log : List Event

/-- The search when the first states have been visited, with these moves. -/
def search {g : Grammar} (known : Known g) (moves : List (List (Symbol × Nat)))
    (log : List Event) : Search :=
  if h : moves.length < known.states.length then
    let v := visit known known.states[moves.length] (known.within _ (List.getElem_mem h))
    search v.known (moves ++ [v.moves]) (log ++ v.log)
  else ⟨known.states, moves, log⟩
termination_by (known.missing, known.states.length - moves.length)
decreasing_by
  rcases visit_known known known.states[moves.length] (known.within _ (List.getElem_mem h))
    with hk | hk
  · rw [hk]
    exact Prod.Lex.right _ (by simp; omega)
  · exact Prod.Lex.left _ _ hk

/-- The canonical collection: its states, its table and what finding it logs. -/
structure Collection where
  states : List State
  trace : Trace
  log : List Event

/-- The canonical collection of the grammar. -/
def collection (g : Grammar) : Collection :=
  let found := search (Known.start g) []
    (g.closureLog ⟨0, g.itemsFor g.start⟩ ++ [.newState 0])
  ⟨found.states, .ofMoves g.symbols.toList found.moves, found.log⟩

end Grammar

end LRZero
