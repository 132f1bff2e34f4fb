import LRZero.Proofs.ViablePrefix

/-!
# States are numbered breadth first

Distances are not kept by the search, so nothing can be said of them while it
runs.  What it keeps is the order of the numbers: after 0, the numbers that the
moves lead to come up for the first time as `1, 2, 3, …` (`Numbered`), and each
of them is logged when it does.

Distances follow from that alone.  If a cell of state `k` leads to `j`, then
every number up to `j` comes up in a row up to that of `k` (`exists_source`),
so a walk to `j` can be replaced, from its end to its start, by a walk to any
smaller number that is no longer (`exists_walk_le`).

Main statement: `numbered_breadth_first`.
-/

namespace LRZero

/-! ## Lists of numbers -/

/-- Where the numbers come up in order, those before one of them are before it. -/
theorem mem_left_of_le {l₁ l₂ : List Nat} {n i j : Nat} (h : (l₁ ++ l₂).eraseDups = List.range n)
    (hj : j ∈ l₁) (hij : i ≤ j) : i ∈ l₁ := by
  have hprefix : l₁.eraseDups <+: List.range n := by
    rw [← h, List.eraseDups_append]
    exact List.prefix_append _ _
  have hrange : l₁.eraseDups = List.range (min l₁.eraseDups.length n) :=
    (List.prefix_iff_eq_take.mp hprefix).trans List.take_range
  have hmem : ∀ k, k ∈ l₁ ↔ k < min l₁.eraseDups.length n := by
    intro k
    rw [← List.mem_eraseDups, ← List.mem_range, ← hrange]
  exact (hmem i).mpr (Nat.lt_of_le_of_lt hij ((hmem j).mp hj))

theorem eraseDups_filter_pos {l : List Nat} {n : Nat} (h : (0 :: l).eraseDups = List.range n) :
    (l.filter (1 ≤ ·)).eraseDups = List.range' 1 (n - 1) := by
  rw [List.eraseDups_cons] at h
  have hpos : l.filter (1 ≤ ·) = l.filter fun k => !k == 0 := by
    refine List.filter_congr fun k _ => ?_
    cases k with
    | zero => rfl
    | succ k => rfl
  cases n with
  | zero => cases h
  | succ n =>
    rw [List.range_eq_range', List.range'_succ] at h
    rw [hpos]
    exact (List.cons.inj h).2

namespace Event

/-- Does the event say that the collection has a new state? -/
def isNewState : Event → Bool
  | newState _ => true
  | _ => false

end Event

/-- `γ` leads from state 0 to state `i`, and no shorter sequence does. -/
def Trace.Shortest (t : Trace) (i : Nat) (γ : List Symbol) : Prop :=
  t.walk? 0 γ = some i ∧ ∀ δ, t.walk? 0 δ = some i → γ.length ≤ δ.length

theorem Trace.exists_shortest {t : Trace} {i : Nat} {γ : List Symbol} (h : t.walk? 0 γ = some i) :
    ∃ δ, t.Shortest i δ := by
  by_cases hγ : t.Shortest i γ
  · exact ⟨γ, hγ⟩
  · have hshorter : ∃ δ, t.walk? 0 δ = some i ∧ δ.length < γ.length := by
      by_contra hnone
      refine hγ ⟨h, fun δ hδ => Nat.not_lt.mp fun hlt => hnone ⟨δ, hδ, hlt⟩⟩
    obtain ⟨δ, hδ, hlt⟩ := hshorter
    exact exists_shortest hδ
termination_by γ.length

namespace Grammar

/-- Where the transitions lead to, in the order of the states they start from,
and of the next symbols of a state. -/
def Collection.targets (c : Collection) : List Nat :=
  (c.states.mapIdx fun i s => s.nextSymbols.filterMap (c.trace.cell? i)).flatten

variable {g : Grammar}

/-! ## The numbers while the search runs -/

/-- With `n` states known, the numbers that the moves lead to have come up in
order, and each state has been logged. -/
structure Numbered (n : Nat) (targets : List Nat) (log : List Event) : Prop where
  inOrder : (0 :: targets).eraseDups = List.range n
  logged : log.filter (·.isNewState) = (List.range n).map fun i : Nat => .newState i

theorem filter_closureLog (s : State) : (g.closureLog s).filter (·.isNewState) = [] := by
  refine List.filter_eq_nil_iff.mpr fun e he => ?_
  obtain ⟨x, -, rfl⟩ := List.mem_map.mp he
  exact Bool.false_ne_true

theorem Numbered.known {n k : Nat} {targets : List Nat} {log : List Event}
    (h : Numbered n targets log) (hk : k < n) (s : State) :
    Numbered n (targets ++ [k]) (log ++ g.closureLog s) := by
  constructor
  · have hmem : k ∈ 0 :: targets := by
      rw [← List.mem_eraseDups, h.inOrder]
      exact List.mem_range.mpr hk
    rw [← List.cons_append, eraseDups_concat_of_mem hmem, h.inOrder]
  · rw [List.filter_append, filter_closureLog, List.append_nil, h.logged]

theorem Numbered.new {n : Nat} {targets : List Nat} {log : List Event}
    (h : Numbered n targets log) (s : State) :
    Numbered (n + 1) (targets ++ [n]) (log ++ g.closureLog s ++ [.newState n]) := by
  constructor
  · have hmem : n ∉ 0 :: targets := by
      rw [← List.mem_eraseDups, h.inOrder]
      exact List.not_mem_range_self
    rw [← List.cons_append, eraseDups_concat_of_not_mem hmem, h.inOrder, List.range_succ]
  · rw [List.filter_append, List.filter_append, filter_closureLog, List.append_nil, h.logged,
      List.range_succ, List.map_append]
    rfl

/-- A followed symbol leads to a number that has come up, or to the next one. -/
theorem Numbered.follow {s : State} (hs : g.Within s) {v : Visit g} {targets : List Nat}
    {log : List Event} (x : Symbol)
    (h : Numbered v.known.states.length (targets ++ v.moves.map (·.2)) (log ++ v.log)) :
    Numbered (v.follow s hs x).known.states.length
      (targets ++ (v.follow s hs x).moves.map (·.2)) (log ++ (v.follow s hs x).log) := by
  rcases Visit.follow_cases s hs v x with ⟨n, hn, he⟩ | ⟨-, he⟩
  · have hlt : n < v.known.states.length := by
      have := (List.idxOf?_eq_some_iff.mp hn).1
      rwa [v.known.keys_eq, List.length_map] at this
    rw [he, List.map_append, ← List.append_assoc, ← List.append_assoc]
    exact h.known hlt _
  · have hlength (t : State) (ht : g.Within t) :
        (v.known.push t ht).states.length = v.known.states.length + 1 := List.length_append
    rw [he, hlength, List.map_append, ← List.append_assoc, ← List.append_assoc,
      ← List.append_assoc]
    exact h.new _

theorem Numbered.visit {known : Known g} {s : State} (hs : g.Within s) {targets : List Nat}
    {log : List Event} (h : Numbered known.states.length targets log) :
    Numbered (visit known s hs).known.states.length
      (targets ++ (visit known s hs).moves.map (·.2)) (log ++ (visit known s hs).log) := by
  have hfoldl : ∀ (xs : List Symbol) (v : Visit g),
      Numbered v.known.states.length (targets ++ v.moves.map (·.2)) (log ++ v.log) →
      Numbered (xs.foldl (Visit.follow s hs) v).known.states.length
        (targets ++ (xs.foldl (Visit.follow s hs) v).moves.map (·.2))
        (log ++ (xs.foldl (Visit.follow s hs) v).log) := by
    intro xs
    induction xs with
    | nil => exact fun _ h => h
    | cons x xs ih => exact fun v h => ih _ (h.follow hs x)
  refine hfoldl s.nextSymbols ⟨known, [], []⟩ ?_
  rw [List.map_nil, List.append_nil, List.append_nil]
  exact h

theorem numbered_search (known : Known g) (moves : List (List (Symbol × Nat))) (log : List Event)
    (h : Numbered known.states.length (moves.flatten.map (·.2)) log) :
    Numbered (search known moves log).states.length
      ((search known moves log).moves.flatten.map (·.2)) (search known moves log).log := by
  fun_induction search known moves log with
  | case1 known moves log hlt v ih =>
    refine ih ?_
    rw [List.flatten_concat, List.map_append]
    exact h.visit _
  | case2 => exact h

theorem numbered_found (g : Grammar) :
    Numbered g.found.states.length (g.found.moves.flatten.map (·.2)) g.found.log := by
  refine numbered_search (Known.start g) [] _ ⟨rfl, ?_⟩
  rw [List.filter_append, filter_closureLog]
  rfl

/-- The targets read off the table are those of the moves. -/
theorem targets_collection (g : Grammar) :
    g.collection.targets = g.found.moves.flatten.map (·.2) := by
  rw [List.map_flatten, Collection.targets]
  refine congrArg List.flatten (List.ext_getElem? fun i => ?_)
  rw [List.getElem?_mapIdx, List.getElem?_map]
  cases hs : g.collection.states[i]? with
  | none =>
    have hnone : g.found.moves[i]? = none := by
      rw [List.getElem?_eq_none_iff] at hs ⊢
      exact (searched_found g).2 ▸ hs
    rw [hnone]
    rfl
  | some s =>
    obtain ⟨m, hm, hexplored⟩ := exists_moves hs
    have hnodup : (m.map (·.1)).Nodup := hexplored.symbols ▸ nodup_eraseDups _
    have hcell : s.nextSymbols.filterMap (g.collection.trace.cell? i) = m.map (·.2) := by
      rw [← hexplored.symbols, ← filterMap_lookup hnodup]
      refine List.filterMap_congr fun x hx => ?_
      obtain ⟨⟨_, j⟩, hj, rfl⟩ := List.mem_map.mp hx
      exact (cell?_eq_some_iff.mpr ⟨m, hm, hj⟩).trans (lookup_eq_some_of_mem hnodup hj).symm
    rw [hm, Option.map_some, Option.map_some, hcell]

/-! ## Walks -/

/-- A number comes up in the row of a state, or before it, if a larger one does. -/
theorem exists_source {i j k : Nat} {x : Symbol} (h : g.collection.trace.cell? k x = some j)
    (hi : 0 < i) (hij : i ≤ j) :
    ∃ l, l ≤ k ∧ ∃ y, g.collection.trace.cell? l y = some i := by
  obtain ⟨m, hm, hx⟩ := cell?_eq_some_iff.mp h
  -- the targets of the rows up to that of `k` stand before all others
  have hsplit := (numbered_found g).inOrder
  rw [← List.take_append_drop (k + 1) g.found.moves, List.flatten_append, List.map_append,
    ← List.cons_append] at hsplit
  have hmtake : m ∈ g.found.moves.take (k + 1) := by
    refine List.mem_of_getElem? (i := k) ?_
    rw [List.getElem?_take, if_pos (Nat.lt_succ_self k), hm]
  have hj : j ∈ 0 :: (g.found.moves.take (k + 1)).flatten.map (·.2) :=
    List.mem_cons_of_mem _ (List.mem_map.mpr ⟨(x, j), List.mem_flatten.mpr ⟨m, hmtake, hx⟩, rfl⟩)
  have hmem := (List.mem_cons.mp (mem_left_of_le hsplit hj hij)).resolve_left (Nat.ne_of_gt hi)
  obtain ⟨⟨y, _⟩, hy, rfl⟩ := List.mem_map.mp hmem
  obtain ⟨m', hm', hy⟩ := List.mem_flatten.mp hy
  obtain ⟨l, hl, hget⟩ := List.mem_take_iff_getElem.mp hm'
  refine ⟨l, by omega, y, cell?_eq_some_iff.mpr ⟨m', ?_, hy⟩⟩
  exact List.getElem?_eq_some_iff.mpr ⟨_, hget⟩

/-- To a smaller number there is a walk that is no longer. -/
theorem exists_walk_le (δ : List Symbol) :
    ∀ i j, g.collection.trace.walk? 0 δ = some j → i ≤ j →
      ∃ γ, g.collection.trace.walk? 0 γ = some i ∧ γ.length ≤ δ.length := by
  induction δ using List.reverseRecOn with
  | nil =>
    intro i j hj hij
    cases hj
    cases Nat.le_zero.mp hij
    exact ⟨[], rfl, Nat.le_refl _⟩
  | append_singleton δ x ih =>
    intro i j hj hij
    rw [Trace.walk?_concat] at hj
    obtain ⟨k, hk, hcell⟩ := Option.bind_eq_some_iff.mp hj
    rcases Nat.eq_zero_or_pos i with rfl | hi
    · exact ⟨[], rfl, Nat.zero_le _⟩
    · obtain ⟨l, hl, y, hy⟩ := exists_source hcell hi hij
      obtain ⟨γ, hγ, hle⟩ := ih l k hk hl
      refine ⟨γ ++ [y], ?_, ?_⟩
      · rw [Trace.walk?_concat, hγ]
        exact hy
      · rw [List.length_append, List.length_append]
        exact Nat.add_le_add_right hle 1

/-- Each state but the first is where an earlier one leads. -/
theorem exists_earlier {i : Nat} (hpos : 0 < i) (hlt : i < g.collection.states.length) :
    ∃ k, k < i ∧ ∃ x, g.collection.trace.cell? k x = some i := by
  obtain ⟨hsearched, -⟩ := searched_found g
  have hi : g.collection.states[i]? = some g.collection.states[i] := List.getElem?_eq_getElem hlt
  obtain ⟨k, t, x, hk, ht, hx, he⟩ := hsearched.grown.origin i _ hi hpos
  obtain ⟨j, hj⟩ := (exists_cell?_iff ht).mpr (State.mem_nextSymbols.mp hx)
  obtain ⟨u, hu, hkey⟩ := leadsTo_of_cell? ht hj
  have hsame : u.key = g.collection.states[i].key := by
    rw [hkey, he]
    exact key_goto t x j i
  obtain rfl : j = i := index_eq_of_key_eq hu hi hsame
  exact ⟨k, hk, x, hj⟩

theorem exists_walk_to {i : Nat} (hlt : i < g.collection.states.length) :
    ∃ γ, g.collection.trace.walk? 0 γ = some i := by
  induction i using Nat.strongRecOn with
  | ind i ih =>
    rcases Nat.eq_zero_or_pos i with rfl | hpos
    · exact ⟨[], rfl⟩
    · obtain ⟨k, hk, x, hcell⟩ := exists_earlier hpos hlt
      obtain ⟨γ, hγ⟩ := ih k hk (Nat.lt_trans hk hlt)
      refine ⟨γ ++ [x], ?_⟩
      rw [Trace.walk?_concat, hγ]
      exact hcell

/-- The numbers of the states of any grammar.  In the list of the targets of
all transitions, by states and in each by the next symbols in the order of the
items, the numbers from 1 on come up for the first time in their order, and all
of them do.  The states are logged as they are numbered, each once.  Each state
can be reached from state 0, and the larger its number, the longer are the
shortest ways to it, or as long. -/
theorem numbered_breadth_first (g : Grammar) :
    (g.collection.targets.filter (1 ≤ ·)).eraseDups =
      List.range' 1 (g.collection.states.length - 1) ∧
    (g.collection.log.filter (·.isNewState)).map (·.message) =
      (List.range g.collection.states.length).map (fun i => s!"new state {i} created") ∧
    (∀ i < g.collection.states.length, ∃ γ, g.collection.trace.Shortest i γ) ∧
    ∀ i j γ δ, i < j → g.collection.trace.Shortest i γ → g.collection.trace.Shortest j δ →
      γ.length ≤ δ.length := by
  have hnumbered := numbered_found g
  refine ⟨?_, ?_, ?_, ?_⟩
  · rw [targets_collection]
    exact eraseDups_filter_pos hnumbered.inOrder
  · rw [show g.collection.log = g.found.log from rfl, hnumbered.logged, List.map_map]
    rfl
  · intro i hi
    obtain ⟨γ, hγ⟩ := exists_walk_to hi
    exact Trace.exists_shortest hγ
  · intro i j γ δ hij hγ hδ
    obtain ⟨γ', hγ', hle⟩ := exists_walk_le δ i j hδ.1 (Nat.le_of_lt hij)
    exact Nat.le_trans (hγ.2 γ' hγ') hle

end Grammar

end LRZero
