import LRZero.Proofs.ItemClosure

/-!
# The canonical collection is what its definition says

The search keeps a growing list of states that is also its queue, their keys,
and the moves of the states visited so far.  Three invariants carry it.
`Grown` says where the states come from: they are numbered by their places, no
key occurs twice, and each state but the first is the goto of an earlier one.
`Explored` says where the symbols of one state lead, and `Searched` puts the
two together for a search whose queue is not empty yet.

Main statement: `collection_canonical`, for any symbols whatsoever.
-/

namespace LRZero

theorem getElem?_of_extends {α : Type} {l m : List α} (h : l <+: m) {i : Nat} {a : α}
    (hi : l[i]? = some a) : m[i]? = some a := by
  obtain ⟨hlt, rfl⟩ := List.getElem?_eq_some_iff.mp hi
  exact List.prefix_iff_getElem?.mp h i hlt

theorem getElem?_concat_cases {α : Type} {l : List α} {a b : α} {i : Nat}
    (h : (l ++ [a])[i]? = some b) : l[i]? = some b ∨ (i = l.length ∧ b = a) := by
  rw [List.getElem?_append] at h
  split at h
  · exact .inl h
  · next hi =>
    obtain ⟨hlt, hb⟩ := List.getElem?_eq_some_iff.mp h
    have hi' : i - l.length = 0 := by
      rw [List.length_singleton] at hlt
      omega
    refine .inr ⟨by omega, ?_⟩
    simpa [hi'] using hb.symm

theorem State.mem_nextSymbols {s : State} {x : Symbol} :
    x ∈ s.nextSymbols ↔ ∃ i ∈ s.items, i.next? = some x := by
  rw [State.nextSymbols, List.mem_eraseDups, List.mem_filterMap]

/-! ## Cells of a table made of moves -/

namespace Trace

theorem lookup_zip_map {α β : Type} [DecidableEq α] (f : α → Option β) (x : α) (l : List α) :
    ((l.zip (l.map f)).lookup x).join = if x ∈ l then f x else none := by
  induction l with
  | nil => rfl
  | cons y l ih =>
    rw [List.map_cons, List.zip_cons_cons, List.lookup_cons]
    by_cases h : x = y
    · rw [h, beq_self_eq_true, if_pos List.mem_cons_self]
      rfl
    · have hmem : x ∈ y :: l ↔ x ∈ l := by rw [List.mem_cons, or_iff_right h]
      rw [beq_false_of_ne h, ih]
      simp only [hmem]

/-- A cell in a column shows where the moves of its row lead the symbol. -/
theorem cell?_ofMoves (columns : List Symbol) (moves : List (List (Symbol × Nat))) (i : Nat)
    (x : Symbol) : (ofMoves columns moves).cell? i x =
      if x ∈ columns then moves[i]?.bind fun m => m.lookup x else none := by
  rw [cell?, ofMoves, List.getElem?_map]
  cases moves[i]? with
  | none => exact (ite_self none).symm
  | some m => exact lookup_zip_map (fun y => m.lookup y) x columns

theorem rowTransitions_map (t : Trace) (i : Nat) (f : Symbol → Option Nat) :
    t.rowTransitions i (t.columns.map f) =
      t.columns.filterMap fun x => (f x).map fun j => ⟨i, x, j⟩ := by
  rw [rowTransitions, ← List.map_prod_left_eq_zip, List.filterMap_map]
  rfl

end Trace

namespace Grammar

variable {g : Grammar}

/-! ## The invariants of the search -/

/-- The symbol leads from `s` to the state with number `j`. -/
def LeadsTo (g : Grammar) (states : List State) (s : State) (x : Symbol) (j : Nat) : Prop :=
  ∃ t, states[j]? = some t ∧ t.key = (g.goto s x j).key

/-- A list of states as the search finds them. -/
structure Grown (g : Grammar) (states : List State) : Prop where
  start : states[0]? = some g.startState
  number : ∀ (i : Nat) (s : State), states[i]? = some s → s.number = i
  distinct : (states.map (·.key)).Nodup
  origin : ∀ (i : Nat) (s : State), states[i]? = some s → 0 < i →
    ∃ (j : Nat) (t : State) (x : Symbol), j < i ∧ states[j]? = some t ∧ x ∈ t.nextSymbols ∧
      s = g.goto t x i

/-- The moves tell where the symbols lead from `s`. -/
structure Explored (g : Grammar) (states : List State) (s : State) (xs : List Symbol)
    (moves : List (Symbol × Nat)) : Prop where
  symbols : moves.map (·.1) = xs
  leadsTo : ∀ x j, (x, j) ∈ moves → g.LeadsTo states s x j

/-- The first states have been visited, with these moves. -/
structure Searched (g : Grammar) (states : List State) (moves : List (List (Symbol × Nat))) :
    Prop where
  grown : g.Grown states
  within : ∀ s ∈ states, g.Within s
  length_le : moves.length ≤ states.length
  explored : ∀ (i : Nat) (m : List (Symbol × Nat)), moves[i]? = some m →
    ∃ s, states[i]? = some s ∧ g.Explored states s s.nextSymbols m

theorem LeadsTo.mono {states states' : List State} {s : State} {x : Symbol} {j : Nat}
    (hp : states <+: states') (h : g.LeadsTo states s x j) : g.LeadsTo states' s x j := by
  obtain ⟨t, ht, hkey⟩ := h
  exact ⟨t, getElem?_of_extends hp ht, hkey⟩

theorem Explored.mono {states states' : List State} {s : State} {xs : List Symbol}
    {moves : List (Symbol × Nat)} (hp : states <+: states') (h : g.Explored states s xs moves) :
    g.Explored states' s xs moves :=
  ⟨h.symbols, fun x j hm => (h.leadsTo x j hm).mono hp⟩

theorem Explored.snoc {states : List State} {s : State} {xs : List Symbol}
    {moves : List (Symbol × Nat)} {x : Symbol} {j : Nat} (h : g.Explored states s xs moves)
    (hx : g.LeadsTo states s x j) : g.Explored states s (xs ++ [x]) (moves ++ [(x, j)]) := by
  refine ⟨by rw [List.map_append, h.symbols]; rfl, ?_⟩
  intro y k hm
  rcases List.mem_append.mp hm with hm | hm
  · exact h.leadsTo y k hm
  · cases List.mem_singleton.mp hm
    exact hx

/-- The list stays grown when it gets the goto of one of its states, unless
the key of that is known. -/
theorem Grown.push {states : List State} {t : State} {x : Symbol} {j : Nat} (h : g.Grown states)
    (hj : states[j]? = some t) (hx : x ∈ t.nextSymbols)
    (hnew : (g.goto t x states.length).key ∉ states.map (·.key)) :
    g.Grown (states ++ [g.goto t x states.length]) := by
  have hp : states <+: states ++ [g.goto t x states.length] := List.prefix_append _ _
  constructor
  · exact getElem?_of_extends hp h.start
  · intro i s hs
    rcases getElem?_concat_cases hs with hs | ⟨rfl, rfl⟩
    · exact h.number i s hs
    · rfl
  · rw [List.map_append]
    refine List.nodup_append.mpr ⟨h.distinct, List.nodup_cons.mpr ⟨List.not_mem_nil, .nil⟩, ?_⟩
    intro k hk k' hk' he
    have hknown : k = (g.goto t x states.length).key := he.trans (List.mem_singleton.mp hk')
    exact hnew (hknown ▸ hk)
  · intro i s hs hi
    rcases getElem?_concat_cases hs with hs | ⟨rfl, rfl⟩
    · obtain ⟨k, u, y, hk, hu, hy, hs⟩ := h.origin i s hs hi
      exact ⟨k, u, y, hk, getElem?_of_extends hp hu, hy, hs⟩
    · exact ⟨j, t, x, (List.getElem?_eq_some_iff.mp hj).1, getElem?_of_extends hp hj, hx, rfl⟩

/-! ## Following symbols -/

theorem Visit.follow_of_known {s : State} (hs : g.Within s) {v : Visit g} {x : Symbol} {n : Nat}
    (hn : v.known.keys.idxOf? (g.goto s x v.known.states.length).key = some n) :
    v.follow s hs x = ⟨v.known, v.moves ++ [(x, n)],
      v.log ++ g.closureLog (kernel s x v.known.states.length)⟩ := by
  simp only [Visit.follow, hn]

theorem Visit.follow_of_new {s : State} (hs : g.Within s) {v : Visit g} {x : Symbol}
    (hn : v.known.keys.idxOf? (g.goto s x v.known.states.length).key = none) :
    v.follow s hs x = ⟨v.known.push _ (goto_within hs x v.known.states.length),
      v.moves ++ [(x, v.known.states.length)],
      v.log ++ g.closureLog (kernel s x v.known.states.length) ++
        [.newState v.known.states.length]⟩ := by
  simp only [Visit.follow, hn]

/-- A symbol leads to a known state, or to a new one that gets the next number. -/
theorem Visit.follow_cases (s : State) (hs : g.Within s) (v : Visit g) (x : Symbol) :
    (∃ n, v.known.keys.idxOf? (g.goto s x v.known.states.length).key = some n ∧
      v.follow s hs x = ⟨v.known, v.moves ++ [(x, n)],
        v.log ++ g.closureLog (kernel s x v.known.states.length)⟩) ∨
    ((g.goto s x v.known.states.length).key ∉ v.known.keys ∧
      v.follow s hs x = ⟨v.known.push _ (goto_within hs x v.known.states.length),
        v.moves ++ [(x, v.known.states.length)],
        v.log ++ g.closureLog (kernel s x v.known.states.length) ++
          [.newState v.known.states.length]⟩) := by
  cases hn : v.known.keys.idxOf? (g.goto s x v.known.states.length).key with
  | some n => exact .inl ⟨n, rfl, follow_of_known hs hn⟩
  | none => exact .inr ⟨List.idxOf?_eq_none_iff.mp hn, follow_of_new hs hn⟩

/-- The visit has followed the symbols `xs` of the state `s`. -/
structure Visit.After (v : Visit g) (s : State) (xs : List Symbol) : Prop where
  grown : g.Grown v.known.states
  explored : g.Explored v.known.states s xs v.moves

theorem Visit.After.follow {v : Visit g} {s : State} {xs : List Symbol} (hs : g.Within s)
    (h : v.After s xs) {j : Nat} (hj : v.known.states[j]? = some s) {x : Symbol}
    (hx : x ∈ s.nextSymbols) :
    v.known.states <+: (v.follow s hs x).known.states ∧
      (v.follow s hs x).After s (xs ++ [x]) := by
  rcases Visit.follow_cases s hs v x with ⟨n, hn, he⟩ | ⟨hnew, he⟩
  · rw [he]
    -- the place of a key is the number of its state
    refine ⟨List.prefix_refl _, h.grown, h.explored.snoc ?_⟩
    obtain ⟨hlt, hkey, -⟩ := List.idxOf?_eq_some_iff.mp hn
    have hget : v.known.keys[n]? = some (g.goto s x v.known.states.length).key :=
      List.getElem?_eq_some_iff.mpr ⟨hlt, hkey⟩
    rw [v.known.keys_eq, List.getElem?_map] at hget
    obtain ⟨t, ht, hkey⟩ := Option.map_eq_some_iff.mp hget
    exact ⟨t, ht, hkey⟩
  · rw [he]
    have hp : v.known.states <+: v.known.states ++ [g.goto s x v.known.states.length] :=
      List.prefix_append _ _
    rw [v.known.keys_eq] at hnew
    refine ⟨hp, h.grown.push hj hx hnew, (h.explored.mono hp).snoc ?_⟩
    exact ⟨_, List.getElem?_concat_length .., rfl⟩

theorem Visit.After.foldl {s : State} (hs : g.Within s) {j : Nat} :
    ∀ {xs ys : List Symbol} {v : Visit g}, v.After s ys → v.known.states[j]? = some s →
      (∀ x ∈ xs, x ∈ s.nextSymbols) →
      v.known.states <+: (xs.foldl (Visit.follow s hs) v).known.states ∧
        (xs.foldl (Visit.follow s hs) v).After s (ys ++ xs)
  | [], ys, v, h, _, _ => by
    rw [List.append_nil]
    exact ⟨List.prefix_refl _, h⟩
  | x :: xs, ys, v, h, hj, hxs => by
    obtain ⟨hp, hv⟩ := h.follow hs hj (hxs x List.mem_cons_self)
    obtain ⟨hp', hv'⟩ := Visit.After.foldl hs hv (getElem?_of_extends hp hj)
      fun y hy => hxs y (List.mem_cons_of_mem _ hy)
    rw [List.append_assoc] at hv'
    exact ⟨hp.trans hp', hv'⟩

theorem visit_after {known : Known g} {s : State} (hs : g.Within s) {j : Nat}
    (h : g.Grown known.states) (hj : known.states[j]? = some s) :
    known.states <+: (visit known s hs).known.states ∧
      (visit known s hs).After s s.nextSymbols := by
  have hstart : Visit.After ⟨known, [], []⟩ s [] :=
    ⟨h, rfl, fun _ _ hm => absurd hm List.not_mem_nil⟩
  exact hstart.foldl hs hj fun _ hx => hx

/-! ## The whole search -/

theorem Searched.snoc {known : Known g} {moves : List (List (Symbol × Nat))}
    (h : g.Searched known.states moves) {s : State} (hs : g.Within s)
    (hget : known.states[moves.length]? = some s) :
    g.Searched (visit known s hs).known.states (moves ++ [(visit known s hs).moves]) := by
  obtain ⟨hp, hv⟩ := visit_after hs h.grown hget
  refine ⟨hv.grown, (visit known s hs).known.within, ?_, ?_⟩
  · have hlt := (List.getElem?_eq_some_iff.mp (getElem?_of_extends hp hget)).1
    rw [List.length_append, List.length_singleton]
    omega
  · intro i m hm
    rcases getElem?_concat_cases hm with hm | ⟨rfl, rfl⟩
    · obtain ⟨t, ht, hexplored⟩ := h.explored i m hm
      exact ⟨t, getElem?_of_extends hp ht, hexplored.mono hp⟩
    · exact ⟨s, getElem?_of_extends hp hget, hv.explored⟩

theorem searched_search (known : Known g) (moves : List (List (Symbol × Nat))) (log : List Event)
    (h : g.Searched known.states moves) :
    g.Searched (search known moves log).states (search known moves log).moves ∧
      (search known moves log).moves.length = (search known moves log).states.length := by
  fun_induction search known moves log with
  | case1 known moves log hlt v ih =>
    exact ih (h.snoc _ (List.getElem?_eq_getElem hlt))
  | case2 known moves log hlt =>
    exact ⟨h, Nat.le_antisymm h.length_le (Nat.not_lt.mp hlt)⟩

theorem searched_start (g : Grammar) : g.Searched (Known.start g).states [] := by
  refine ⟨⟨rfl, ?_, ?_, ?_⟩, (Known.start g).within, Nat.zero_le _, fun i m hm => ?_⟩
  · intro i s hs
    obtain ⟨hlt, rfl⟩ := List.getElem?_eq_some_iff.mp hs
    cases Nat.lt_one_iff.mp hlt
    rfl
  · exact List.nodup_cons.mpr ⟨List.not_mem_nil, .nil⟩
  · intro i s hs hi
    have hlt := (List.getElem?_eq_some_iff.mp hs).1
    exact absurd (Nat.lt_one_iff.mp hlt) (Nat.pos_iff_ne_zero.mp hi)
  · rw [List.getElem?_nil] at hm
    cases hm

/-- The search that the collection is taken from. -/
def found (g : Grammar) : Search :=
  search (Known.start g) [] (g.closureLog ⟨0, g.itemsFor g.start⟩ ++ [.newState 0])

theorem collection_eq_found (g : Grammar) :
    g.collection = ⟨g.found.states, .ofMoves g.symbols.toList g.found.moves, g.found.log⟩ :=
  rfl

/-- It has come to its end. -/
theorem searched_found (g : Grammar) :
    g.Searched g.found.states g.found.moves ∧ g.found.moves.length = g.found.states.length :=
  searched_search (Known.start g) [] _ (searched_start g)

theorem searched_collection (g : Grammar) : ∃ moves, g.Searched g.collection.states moves ∧
    moves.length = g.collection.states.length ∧
    g.collection.trace = .ofMoves g.symbols.toList moves := by
  obtain ⟨h, hlength⟩ := searched_found g
  exact ⟨_, h, hlength, rfl⟩

/-! ## The collection -/

theorem mem_symbols_of_mem_body {r : Rule} {x : Symbol} (hr : r ∈ g.rules) (hx : x ∈ r.body) :
    x ∈ g.symbols := by
  refine SortedSet.mem_union.mpr (.inr (SortedSet.mem_ofList.mpr ?_))
  exact List.mem_flatMap.mpr ⟨r, hr, List.mem_cons_of_mem _ hx⟩

theorem Within.mem_symbols {s : State} (hs : g.Within s) {x : Symbol} (hx : x ∈ s.nextSymbols) :
    x ∈ g.symbols := by
  obtain ⟨i, hi, hnext⟩ := State.mem_nextSymbols.mp hx
  obtain ⟨r, hr, n, -, rfl⟩ := mem_items.mp (hs i hi)
  rw [Item.next?_ofRuleAt] at hnext
  exact mem_symbols_of_mem_body hr (List.mem_of_getElem? hnext)

/-- The symbols that the moves of a search go by are symbols of the grammar. -/
theorem Searched.mem_symbols {states : List State} {moves : List (List (Symbol × Nat))}
    (h : g.Searched states moves) {m : List (Symbol × Nat)} (hm : m ∈ moves)
    {x : Symbol} {j : Nat} (hx : (x, j) ∈ m) : x ∈ g.symbols := by
  obtain ⟨i, hi⟩ := List.mem_iff_getElem?.mp hm
  obtain ⟨s, hs, hexplored⟩ := h.explored i m hi
  refine (h.within s (List.mem_of_getElem? hs)).mem_symbols ?_
  rw [← hexplored.symbols]
  exact List.mem_map.mpr ⟨(x, j), hx, rfl⟩

theorem index_eq_of_key_eq {i j : Nat} {s t : State} (hs : g.collection.states[i]? = some s)
    (ht : g.collection.states[j]? = some t) (h : s.key = t.key) : i = j := by
  obtain ⟨_, hsearched, -, -⟩ := searched_collection g
  have hi : i < (g.collection.states.map (·.key)).length := by
    rw [List.length_map]
    exact (List.getElem?_eq_some_iff.mp hs).1
  refine (List.getElem?_inj hi hsearched.grown.distinct).mp ?_
  rw [List.getElem?_map, List.getElem?_map, hs, ht, Option.map_some, Option.map_some, h]

theorem within_collection : ∀ s ∈ g.collection.states, g.Within s := by
  obtain ⟨_, h, -, -⟩ := searched_collection g
  exact h.within

/-- Every state is a closure, so it is closed. -/
theorem closed_collection : ∀ s ∈ g.collection.states, g.Closed s := by
  intro s hs
  obtain ⟨_, h, -, -⟩ := searched_collection g
  obtain ⟨i, hi⟩ := List.mem_iff_getElem?.mp hs
  rcases Nat.eq_zero_or_pos i with rfl | hpos
  · cases h.grown.start.symm.trans hi
    exact closed_closure _
  · obtain ⟨j, t, x, -, -, -, rfl⟩ := h.grown.origin i s hi hpos
    exact closed_closure _

/-- A cell shows a move from its state. -/
theorem cell?_eq_some_iff {i j : Nat} {x : Symbol} : g.collection.trace.cell? i x = some j ↔
    ∃ m, g.found.moves[i]? = some m ∧ (x, j) ∈ m := by
  obtain ⟨hsearched, -⟩ := searched_found g
  rw [collection_eq_found, Trace.cell?_ofMoves]
  constructor
  · intro h
    split at h
    · obtain ⟨m, hm, hx⟩ := Option.bind_eq_some_iff.mp h
      exact ⟨m, hm, mem_of_lookup hx⟩
    · cases h
  · rintro ⟨m, hm, hx⟩
    obtain ⟨s, -, hexplored⟩ := hsearched.explored i m hm
    have hnodup : (m.map (·.1)).Nodup := hexplored.symbols ▸ nodup_eraseDups _
    have hcolumn := hsearched.mem_symbols (List.mem_of_getElem? hm) hx
    rw [if_pos (SortedSet.mem_toList.mpr hcolumn), hm]
    exact lookup_eq_some_of_mem hnodup hx

theorem exists_moves {i : Nat} {s : State} (hs : g.collection.states[i]? = some s) :
    ∃ m, g.found.moves[i]? = some m ∧
      g.Explored g.collection.states s s.nextSymbols m := by
  obtain ⟨hsearched, hlength⟩ := searched_found g
  have hlt : i < g.found.moves.length := hlength ▸ (List.getElem?_eq_some_iff.mp hs).1
  have hm : g.found.moves[i]? = some g.found.moves[i] := List.getElem?_eq_getElem hlt
  obtain ⟨t, ht, hexplored⟩ := hsearched.explored i _ hm
  cases hs.symm.trans ht
  exact ⟨_, hm, hexplored⟩

theorem leadsTo_of_cell? {i j : Nat} {s : State} {x : Symbol}
    (hs : g.collection.states[i]? = some s) (h : g.collection.trace.cell? i x = some j) :
    g.LeadsTo g.collection.states s x j := by
  obtain ⟨m, hm, hexplored⟩ := exists_moves hs
  obtain ⟨_, hm', hx⟩ := cell?_eq_some_iff.mp h
  cases hm.symm.trans hm'
  exact hexplored.leadsTo x j hx

/-- A row that shows something is the row of a state. -/
theorem exists_state_of_cell? {i j : Nat} {x : Symbol}
    (h : g.collection.trace.cell? i x = some j) : ∃ s, g.collection.states[i]? = some s := by
  obtain ⟨m, hm, -⟩ := cell?_eq_some_iff.mp h
  obtain ⟨s, hs, -⟩ := (searched_found g).1.explored i m hm
  exact ⟨s, hs⟩

theorem exists_state_of_target {i j : Nat} {x : Symbol}
    (h : g.collection.trace.cell? i x = some j) : ∃ t, g.collection.states[j]? = some t := by
  obtain ⟨s, hs⟩ := exists_state_of_cell? h
  obtain ⟨t, ht, -⟩ := leadsTo_of_cell? hs h
  exact ⟨t, ht⟩

/-- Where symbols are plain, the state that a cell leads to holds the items of
the goto, and not only their texts. -/
theorem exists_goto_of_cell? (hg : ∀ r ∈ g.rules, r.Plain) {i j : Nat} {s : State} {x : Symbol}
    (hs : g.collection.states[i]? = some s) (h : g.collection.trace.cell? i x = some j) :
    ∃ t, g.collection.states[j]? = some t ∧
      ∀ item, item ∈ t.items ↔ item ∈ (g.goto s x j).items := by
  obtain ⟨t, ht, hkey⟩ := leadsTo_of_cell? hs h
  have hts := (within_collection t (List.mem_of_getElem? ht)).proper hg
  have hgoto := (goto_within (within_collection s (List.mem_of_getElem? hs)) x j).proper hg
  exact ⟨t, ht, mem_iff_of_key_eq hts hgoto hkey⟩

theorem exists_cell?_iff {i : Nat} {s : State} {x : Symbol}
    (hs : g.collection.states[i]? = some s) :
    (∃ j, g.collection.trace.cell? i x = some j) ↔ ∃ item ∈ s.items, item.next? = some x := by
  obtain ⟨m, hm, hexplored⟩ := exists_moves hs
  rw [← State.mem_nextSymbols, ← hexplored.symbols, List.mem_map]
  constructor
  · rintro ⟨j, hj⟩
    obtain ⟨_, hm', hx⟩ := cell?_eq_some_iff.mp hj
    cases hm.symm.trans hm'
    exact ⟨(x, j), hx, rfl⟩
  · rintro ⟨⟨_, j⟩, hx, rfl⟩
    exact ⟨j, cell?_eq_some_iff.mpr ⟨m, hm, hx⟩⟩

/-- What begins a rule of the start symbol leads from state 0 to some state. -/
theorem exists_cell?_zero {r : Rule} {x : Symbol} (hr : r ∈ g.rulesFor g.start)
    (hx : r.body.head? = some x) : ∃ q, g.collection.trace.cell? 0 x = some q := by
  obtain ⟨_, hsearched, -, -⟩ := searched_collection g
  have hitem : Item.ofRule r ∈ g.startState.items :=
    (prefix_closure ⟨0, g.itemsFor g.start⟩).subset (List.mem_map.mpr ⟨r, hr, rfl⟩)
  have hnext : (Item.ofRule r).next? = some x := by
    rw [Item.next?_ofRule]
    exact hx
  exact (exists_cell?_iff hsearched.grown.start).mpr ⟨_, hitem, hnext⟩

/-- Where state 0 has one symbol behind its dots, which leads away from it,
state 1 is where that symbol leads. -/
theorem state_one {x : Symbol} (hx : g.startState.nextSymbols = [x])
    (hkey : (g.goto g.startState x 1).key ≠ g.startState.key) :
    g.collection.trace.cell? 0 x = some 1 ∧
      g.collection.states[1]? = some (g.goto g.startState x 1) := by
  obtain ⟨_, h, -, -⟩ := searched_collection g
  have hmem : x ∈ g.startState.nextSymbols := hx ▸ List.mem_cons_self
  obtain ⟨j, hj⟩ := (exists_cell?_iff h.grown.start).mpr (State.mem_nextSymbols.mp hmem)
  obtain ⟨t, ht, htkey⟩ := leadsTo_of_cell? h.grown.start hj
  have hpos : 0 < j := by
    refine Nat.pos_of_ne_zero ?_
    rintro rfl
    cases h.grown.start.symm.trans ht
    exact hkey htkey.symm
  have hlt : 1 < g.collection.states.length :=
    Nat.lt_of_le_of_lt hpos (List.getElem?_eq_some_iff.mp ht).1
  have hone : g.collection.states[1]? = some g.collection.states[1] := List.getElem?_eq_getElem hlt
  -- it comes from an earlier state, which can only be state 0
  obtain ⟨i, u, y, hi, hu, hy, he⟩ := h.grown.origin 1 _ hone Nat.one_pos
  cases Nat.lt_one_iff.mp hi
  cases h.grown.start.symm.trans hu
  rw [hx] at hy
  rw [List.mem_singleton.mp hy] at he
  rw [he] at hone
  obtain rfl : j = 1 := index_eq_of_key_eq ht hone htkey
  exact ⟨hj, hone⟩

/-- The canonical collection of any grammar.  The states are numbered by their
places, differ in their keys, start with the closure of the items of the start
symbol and go on with non-empty gotos of earlier states.  The table has a row
for each state with a cell for each symbol; a cell shows the number of the
state with the key of the goto where the symbol is behind a dot, and nothing
where it is not. -/
theorem collection_canonical (g : Grammar) :
    (∀ (i : Nat) (s : State), g.collection.states[i]? = some s → s.number = i) ∧
    (g.collection.states.map (·.key)).Nodup ∧
    g.collection.states[0]? = some (g.closure ⟨0, g.itemsFor g.start⟩) ∧
    (∀ (i : Nat) (s : State), 0 < i → g.collection.states[i]? = some s →
      s.items ≠ [] ∧ ∃ (j : Nat) (t : State) (x : Symbol),
        j < i ∧ g.collection.states[j]? = some t ∧ s = g.goto t x i) ∧
    g.collection.trace.columns = g.symbols.toList ∧
    g.collection.trace.rows.length = g.collection.states.length ∧
    (∀ row ∈ g.collection.trace.rows, row.length = g.symbols.toList.length) ∧
    (∀ (i : Nat) (s : State), g.collection.states[i]? = some s → ∀ x ∈ g.symbols,
      ((∃ j, g.collection.trace.cell? i x = some j) ↔ ∃ item ∈ s.items, item.next? = some x) ∧
      ∀ j, g.collection.trace.cell? i x = some j →
        ∃ t, g.collection.states[j]? = some t ∧ ∀ n, (g.goto s x n).key = t.key) ∧
    ∀ s ∈ g.collection.states, ∀ item ∈ s.items, ∀ x, item.next? = some x → x ∈ g.symbols := by
  obtain ⟨moves, h, hlength, htrace⟩ := searched_collection g
  refine ⟨h.grown.number, h.grown.distinct, h.grown.start, ?_, ?_, ?_, ?_, ?_, ?_⟩
  · intro i s hi hs
    obtain ⟨j, t, x, hj, ht, hx, rfl⟩ := h.grown.origin i s hs hi
    obtain ⟨item, hitem, hnext⟩ := State.mem_nextSymbols.mp hx
    exact ⟨goto_ne_nil hitem hnext i, j, t, x, hj, ht, rfl⟩
  · rw [htrace]
    rfl
  · rw [htrace, ← hlength]
    exact List.length_map _
  · intro row hrow
    rw [htrace] at hrow
    obtain ⟨m, -, rfl⟩ := List.mem_map.mp hrow
    exact List.length_map _
  · intro i s hs x _
    refine ⟨exists_cell?_iff hs, fun j hj => ?_⟩
    obtain ⟨t, ht, hkey⟩ := leadsTo_of_cell? hs hj
    exact ⟨t, ht, fun n => (key_goto s x n j).trans hkey.symm⟩
  · intro s hs item hitem x hx
    exact (within_collection s hs).mem_symbols (State.mem_nextSymbols.mpr ⟨item, hitem, hx⟩)

end Grammar

end LRZero
