import Mathlib.Algebra.Group.Nat.Defs
import Mathlib.Data.List.Nodup
import Mathlib.Data.List.Perm.Subperm
import LRZero.Proofs.CanonicalCollection

/-!
# The search ends and is never refused

All items of all states have the texts of items of the rules, with the dot at a
place of the body.  The keys of the states are different sets of these texts,
so there are at most as many states as sets.

The search is stated once more with operations that can be refused: an item
whose dot is not in its body may have no next symbol to tell, and a complete
item cannot be moved.  `Runs` is the loop over the queue with these operations,
and it goes through from state 0 to the end of the search (`runs_search`).

Main statement: `search_finite`.
-/

namespace LRZero

theorem length_subsets {α : Type} (l : List α) : (subsets l).length = 2 ^ l.length := by
  induction l with
  | nil => rfl
  | cons a l ih =>
    rw [subsets, List.length_append, List.length_map, ih, List.length_cons, Nat.pow_succ]
    omega

theorem Item.InBody.next_eq_ok {i : Item} (h : i.InBody) : i.next = .ok i.next? :=
  Item.next_eq_ok_iff.mpr ⟨h.fault?_eq_none, rfl⟩

/-- An item with a symbol behind its dot is not complete. -/
theorem Item.InBody.advance_eq_ok {i : Item} {x : Symbol} (h : i.InBody) (hx : i.next? = some x) :
    i.advance = .ok i.advanced :=
  Item.advance_of_not_isComplete (Item.not_isComplete_iff.mpr (h.dot_lt hx))

namespace Grammar

variable {g : Grammar} {s : State} {x : Symbol}

/-! ## Operations that can be refused -/

/-- The items with the symbol behind the dot, the dot moved over it.  Each item
is asked for its next symbol. -/
def moved? (x : Symbol) : List Item → Except Fault (List Item)
  | [] => .ok []
  | i :: rest => do
    if (← i.next) = some x then
      let j ← i.advance
      return j :: (← moved? x rest)
    else moved? x rest

/-- The state that a symbol leads to, or the first fault on the way there. -/
def checkedGoto (g : Grammar) (s : State) (x : Symbol) (number : Int) : Except Fault State := do
  let items ← moved? x s.items
  (g.closure? ⟨number, Item.fresh [] items⟩).1

/-- The states found so far, and the moves from the one that is visited. -/
structure Queue where
  states : List State
  moves : List (Symbol × Nat)

/-- One more symbol followed, to a known state or to a new one. -/
def follow? (g : Grammar) (s : State) (q : Queue) (x : Symbol) : Except Fault Queue := do
  let t ← g.checkedGoto s x q.states.length
  match (q.states.map (·.key)).idxOf? t.key with
  | some n => return ⟨q.states, q.moves ++ [(x, n)]⟩
  | none => return ⟨q.states ++ [t], q.moves ++ [(x, q.states.length)]⟩

/-- The visit of a state. -/
def visit? (g : Grammar) (states : List State) (s : State) : Except Fault Queue := do
  (← s.symbols).foldlM (g.follow? s) ⟨states, []⟩

/-- `Runs g states moves states' moves'`: with moves for the first states, the
loop visits one state after the other without a fault and ends with `states'`
and `moves'`. -/
inductive Runs (g : Grammar) : List State → List (List (Symbol × Nat)) → List State →
    List (List (Symbol × Nat)) → Prop
  | done {states : List State} {moves : List (List (Symbol × Nat))} :
      ¬ moves.length < states.length → Runs g states moves states moves
  | visit {states states' : List State} {moves moves' : List (List (Symbol × Nat))} {s : State}
      {q : Queue} : states[moves.length]? = some s → g.visit? states s = .ok q →
      Runs g q.states (moves ++ [q.moves]) states' moves' → Runs g states moves states' moves'

theorem moved?_eq_ok {l : List Item} (h : ∀ i ∈ l, i.InBody) :
    moved? x l = .ok ((l.filter fun i => i.next? = some x).map (·.advanced)) := by
  induction l with
  | nil => rfl
  | cons i l ih =>
    have hi := h i List.mem_cons_self
    have hrest := ih fun j hj => h j (List.mem_cons_of_mem _ hj)
    by_cases hx : i.next? = some x
    · have hfilter : (i :: l).filter (fun i => i.next? = some x) =
          i :: l.filter fun i => i.next? = some x := List.filter_cons_of_pos (decide_eq_true hx)
      rw [moved?, hi.next_eq_ok, hfilter, hrest, hi.advance_eq_ok hx, hx]
      simp only [bind, Except.bind, if_true]
      rfl
    · have hfilter : (i :: l).filter (fun i => i.next? = some x) =
          l.filter fun i => i.next? = some x := List.filter_cons_of_neg (by simpa using hx)
      rw [moved?, hi.next_eq_ok, hfilter, hrest]
      simp only [bind, Except.bind, if_neg hx]

theorem checkedGoto_eq_ok (hs : g.Within s) (x : Symbol) (n : Int) :
    g.checkedGoto s x n = .ok (g.goto s x n) := by
  rw [checkedGoto, moved?_eq_ok hs.inBody]
  exact congrArg Prod.fst (closure?_eq_ok (kernel_within hs x n).inBody)

theorem follow?_eq_ok (hs : g.Within s) (v : Visit g) (x : Symbol) :
    g.follow? s ⟨v.known.states, v.moves⟩ x =
      .ok ⟨(v.follow s hs x).known.states, (v.follow s hs x).moves⟩ := by
  rw [follow?, checkedGoto_eq_ok hs, ← v.known.keys_eq]
  simp only [bind, Except.bind]
  cases hn : v.known.keys.idxOf? (g.goto s x v.known.states.length).key with
  | some n => rw [Visit.follow_of_known hs hn]; rfl
  | none => rw [Visit.follow_of_new hs hn]; rfl

theorem foldlM_follow?_eq_ok (hs : g.Within s) (xs : List Symbol) :
    ∀ v : Visit g, xs.foldlM (g.follow? s) ⟨v.known.states, v.moves⟩ =
      .ok ⟨(xs.foldl (Visit.follow s hs) v).known.states,
        (xs.foldl (Visit.follow s hs) v).moves⟩ := by
  induction xs with
  | nil => exact fun _ => rfl
  | cons x xs ih =>
    intro v
    rw [List.foldlM_cons, follow?_eq_ok hs, List.foldl_cons]
    exact ih (v.follow s hs x)

theorem visit?_eq_ok (known : Known g) (hs : g.Within s) :
    g.visit? known.states s = .ok ⟨(visit known s hs).known.states, (visit known s hs).moves⟩ := by
  rw [visit?, State.symbols_eq_ok hs.inBody]
  exact foldlM_follow?_eq_ok hs s.nextSymbols ⟨known, [], []⟩

theorem runs_search (known : Known g) (moves : List (List (Symbol × Nat))) (log : List Event) :
    g.Runs known.states moves (search known moves log).states (search known moves log).moves := by
  fun_induction search known moves log with
  | case1 known moves log hlt v ih =>
    exact .visit (List.getElem?_eq_getElem hlt) (visit?_eq_ok known _) ih
  | case2 known moves log hlt => exact .done hlt

/-! ## How many states there are -/

theorem mem_itemTexts {t : String} :
    t ∈ g.itemTexts ↔ ∃ r ∈ g.rules, ∃ n : Nat, n ≤ r.body.length ∧ t = (Item.ofRuleAt r n).text := by
  simp only [itemTexts, SortedSet.mem_ofList, List.mem_map, mem_items]
  constructor
  · rintro ⟨_, ⟨r, hr, n, hn, rfl⟩, rfl⟩
    exact ⟨r, hr, n, hn, rfl⟩
  · rintro ⟨r, hr, n, hn, rfl⟩
    exact ⟨_, ⟨r, hr, n, hn, rfl⟩, rfl⟩

theorem length_states_le (g : Grammar) : g.collection.states.length ≤ 2 ^ g.itemTexts.size := by
  obtain ⟨_, hsearched, -, -⟩ := searched_collection g
  have hnodup : (g.collection.states.map (·.key.toList)).Nodup := by
    rw [← Function.comp_def, ← List.map_map]
    exact hsearched.grown.distinct.map fun _ _ h => SortedSet.toList_inj.mp h
  have hsubset : ∀ k ∈ g.collection.states.map (·.key.toList), k ∈ subsets g.itemTexts.toList := by
    intro k hk
    obtain ⟨s, hs, rfl⟩ := List.mem_map.mp hk
    exact (within_collection s hs).key_mem_subsets
  have hle := (List.subperm_of_subset hnodup hsubset).length_le
  rwa [List.length_map, length_subsets] at hle

/-- The search for the states of any grammar.  The loop over the queue ends, as
many states visited as found, and the table has a row for each.  On the way no
item is asked in vain for its next symbol and no dot is moved beyond its body.
The items of the states have the texts of items of the rules with the dot at a
place of the body, where their own dots are, too, and there are at most as many
states as sets of such texts. -/
theorem search_finite (g : Grammar) :
    (∃ moves, (g.closure? ⟨0, g.itemsFor g.start⟩).1 = .ok g.startState ∧
      g.Runs [g.startState] [] g.collection.states moves ∧
      moves.length = g.collection.states.length ∧
      g.collection.trace = .ofMoves g.symbols.toList moves ∧
      g.collection.trace.rows.length = g.collection.states.length) ∧
    (∀ s ∈ g.collection.states, ∀ i ∈ s.items,
      i.text ∈ g.itemTexts ∧ 0 ≤ i.dot ∧ i.dot ≤ i.body.length ∧
        (∃ x, i.next = .ok x) ∧ ∀ x, i.next = .ok (some x) → ∃ j, i.advance = .ok j) ∧
    (∀ t, t ∈ g.itemTexts ↔
      ∃ r ∈ g.rules, ∃ n : Nat, n ≤ r.body.length ∧ t = (Item.ofRuleAt r n).text) ∧
    g.collection.states.length ≤ 2 ^ g.itemTexts.size := by
  obtain ⟨-, hlength⟩ := searched_found g
  refine ⟨⟨g.found.moves, ?_, runs_search (Known.start g) [] _, hlength, rfl, ?_⟩, ?_,
    fun _ => mem_itemTexts, length_states_le g⟩
  · have hwithin : g.Within ⟨0, g.itemsFor g.start⟩ := fun _ => itemsFor_subset
    exact congrArg Prod.fst (closure?_eq_ok hwithin.inBody)
  · exact (List.length_map _).trans hlength
  · intro s hs i hi
    have hwithin := within_collection s hs
    have hinBody := hwithin.inBody i hi
    refine ⟨SortedSet.mem_ofList.mpr (List.mem_map.mpr ⟨i, hwithin i hi, rfl⟩), hinBody.1, hinBody.2,
      ⟨_, hinBody.next_eq_ok⟩, fun x hx => ?_⟩
    exact ⟨_, hinBody.advance_eq_ok (Item.next_eq_ok_iff.mp hx).2⟩

end Grammar

end LRZero
