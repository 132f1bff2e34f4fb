import Mathlib.Data.List.Nodup
import LRZero.Graph
import LRZero.Proofs.CanonicalCollection

/-!
# Transitions and edges as the cells tell them

Each row of the table of a canonical collection is what its cells show.  Read
off such a table, transitions and edges are functions of the cells
(`transitions_eq`, `edges_eq`): there is a transition for each cell that shows
something, and an edge for each two states with a symbol between them.
-/

namespace LRZero

/-! ## Lists in parts -/

theorem flatten_mapIdx_eq {α β : Type} {l : List α} {f : Nat → α → List β} {g : Nat → List β}
    (h : ∀ (i : Nat) (a : α), l[i]? = some a → f i a = g i) :
    (l.mapIdx f).flatten = (List.range l.length).flatMap g := by
  rw [List.flatMap_def]
  refine congrArg List.flatten (List.ext_getElem? fun i => ?_)
  rw [List.getElem?_mapIdx, List.getElem?_map]
  cases ha : l[i]? with
  | none =>
    have hrange : (List.range l.length).length ≤ i :=
      Nat.le_trans (Nat.le_of_eq List.length_range) (List.getElem?_eq_none_iff.mp ha)
    rw [List.getElem?_eq_none hrange]
    rfl
  | some a =>
    rw [List.getElem?_range (List.getElem?_eq_some_iff.mp ha).1]
    exact congrArg some (h i a ha)

/-- Nothing comes up twice in parts whose members tell which part they are in. -/
theorem nodup_flatMap_of_part {α β : Type} {l : List α} {f : α → List β} (part : β → α)
    (hl : l.Nodup) (hf : ∀ a ∈ l, (f a).Nodup) (hpart : ∀ a ∈ l, ∀ b ∈ f a, part b = a) :
    (l.flatMap f).Nodup := by
  refine List.nodup_flatMap.mpr ⟨hf, hl.imp_of_mem fun {a a'} ha ha' hne b hb hb' => ?_⟩
  exact hne ((hpart a ha b hb).symm.trans (hpart a' ha' b hb'))

/-- What picks from one part only picks nothing from the others. -/
theorem filter_flatMap_eq {α β : Type} {l : List α} {f : α → List β} {p : β → Bool} {a : α}
    (ha : a ∈ l) (hl : l.Nodup) (hp : ∀ a' ≠ a, ∀ b ∈ f a', p b = false) :
    (l.flatMap f).filter p = (f a).filter p := by
  obtain ⟨l₁, l₂, rfl⟩ := List.append_of_mem ha
  obtain ⟨h₁, h₂⟩ : a ∉ l₁ ∧ a ∉ l₂ := by
    rw [List.nodup_middle, List.nodup_cons, List.mem_append, not_or] at hl
    exact hl.1
  have hnone : ∀ l' : List α, a ∉ l' → (l'.flatMap f).filter p = [] := by
    intro l' hl'
    refine List.filter_eq_nil_iff.mpr fun b hb => ?_
    obtain ⟨a', ha', hb⟩ := List.mem_flatMap.mp hb
    rw [hp a' (fun he => hl' (he ▸ ha')) b hb]
    exact Bool.false_ne_true
  rw [List.flatMap_append, List.filter_append, hnone l₁ h₁, List.flatMap_cons, List.filter_append,
    hnone l₂ h₂, List.nil_append, List.append_nil]

/-! ## Reading off transitions and edges -/

/-- The states that a transition leads from and to. -/
def Transition.ends (t : Transition) : Nat × Nat := (t.source, t.target)

/-- The states that an edge leads from and to. -/
def Edge.ends (e : Edge) : Nat × Nat := (e.source, e.target)

namespace Trace

variable {t : Trace} {i j : Nat} {x : Symbol}

/-- A table of distinct columns in which each row is what its cells show. -/
structure Regular (t : Trace) : Prop where
  nodup_columns : t.columns.Nodup
  row_eq : ∀ (i : Nat) (row : List (Option Nat)), t.rows[i]? = some row →
    row = t.columns.map (t.cell? i)

theorem regular_ofMoves {columns : List Symbol} (h : columns.Nodup)
    (moves : List (List (Symbol × Nat))) : (ofMoves columns moves).Regular := by
  refine ⟨h, fun i row hrow => ?_⟩
  rw [ofMoves, List.getElem?_map] at hrow
  obtain ⟨m, hm, rfl⟩ := Option.map_eq_some_iff.mp hrow
  refine List.map_congr_left fun x hx => ?_
  rw [cell?_ofMoves, if_pos hx, hm]
  rfl

/-- A cell that shows something stands in a row and a column of the table. -/
theorem lt_and_mem_of_cell? (h : t.cell? i x = some j) : i < t.rows.length ∧ x ∈ t.columns := by
  obtain ⟨row, hrow, hx⟩ := Option.bind_eq_some_iff.mp (Option.join_eq_some_iff.mp h)
  exact ⟨(List.getElem?_eq_some_iff.mp hrow).1, (List.of_mem_zip (mem_of_lookup hx)).1⟩

/-- The transitions that the cells of one state show, in the order of the columns. -/
def transitionsFrom (t : Trace) (i : Nat) : List Transition :=
  t.columns.filterMap fun x => (t.cell? i x).map fun j => ⟨i, x, j⟩

/-- The symbols that lead from a state to another, in the order of the columns. -/
def symbolsBetween (t : Trace) (i j : Nat) : List Symbol :=
  t.columns.filter fun x => decide (t.cell? i x = some j)

/-- The edges from one state, one for each state that some symbol leads to. -/
def edgesFrom (t : Trace) (i : Nat) : List Edge :=
  (SortedSet.ofList (t.columns.filterMap (t.cell? i))).toList.map fun j =>
    ⟨i, j, t.symbolsBetween i j⟩

theorem mem_symbolsBetween : x ∈ t.symbolsBetween i j ↔ t.cell? i x = some j := by
  rw [symbolsBetween, List.mem_filter, decide_eq_true_eq, and_iff_right_iff_imp]
  exact fun h => (lt_and_mem_of_cell? h).2

theorem mem_transitionsFrom {tr : Transition} :
    tr ∈ t.transitionsFrom i ↔ tr.source = i ∧ t.cell? i tr.symbol = some tr.target := by
  rw [transitionsFrom, List.mem_filterMap]
  constructor
  · rintro ⟨x, -, h⟩
    obtain ⟨j, hj, rfl⟩ := Option.map_eq_some_iff.mp h
    exact ⟨rfl, hj⟩
  · rintro ⟨rfl, h⟩
    exact ⟨tr.symbol, (lt_and_mem_of_cell? h).2, Option.map_eq_some_iff.mpr ⟨tr.target, h, rfl⟩⟩

theorem mem_edgesFrom {e : Edge} : e ∈ t.edgesFrom i ↔
    e.source = i ∧ (∃ x, t.cell? i x = some e.target) ∧
      e.symbols = t.symbolsBetween i e.target := by
  rw [edgesFrom, List.mem_map]
  constructor
  · rintro ⟨j, hj, rfl⟩
    obtain ⟨x, -, hx⟩ := List.mem_filterMap.mp (SortedSet.mem_ofList.mp hj)
    exact ⟨rfl, ⟨x, hx⟩, rfl⟩
  · rintro ⟨rfl, ⟨x, hx⟩, hsymbols⟩
    refine ⟨e.target, SortedSet.mem_ofList.mpr ?_, ?_⟩
    · exact List.mem_filterMap.mpr ⟨x, (lt_and_mem_of_cell? hx).2, hx⟩
    · rw [← hsymbols]

theorem transitions_eq (h : t.Regular) :
    t.transitions = (List.range t.rows.length).flatMap t.transitionsFrom := by
  refine flatten_mapIdx_eq fun i row hrow => ?_
  rw [h.row_eq i row hrow]
  exact rowTransitions_map t i (t.cell? i)

theorem edges_eq (h : t.Regular) (states : List State) :
    (Graph.ofTrace states t).edges = (List.range t.rows.length).flatMap t.edgesFrom := by
  refine flatten_mapIdx_eq fun i row hrow => ?_
  have htargets : row.filterMap id = t.columns.filterMap (t.cell? i) := by
    rw [h.row_eq i row hrow, List.filterMap_map]
    rfl
  rw [rowEdges, htargets, edgesFrom]
  refine List.map_congr_left fun j _ => congrArg (Edge.mk i j) ?_
  rw [h.row_eq i row hrow, ← List.map_prod_left_eq_zip, List.filter_map, List.map_map,
    symbolsBetween]
  exact List.map_id _

theorem mem_transitions (h : t.Regular) {tr : Transition} :
    tr ∈ t.transitions ↔ t.cell? tr.source tr.symbol = some tr.target := by
  rw [transitions_eq h, List.mem_flatMap]
  constructor
  · rintro ⟨i, -, htr⟩
    obtain ⟨rfl, hcell⟩ := mem_transitionsFrom.mp htr
    exact hcell
  · intro hcell
    refine ⟨tr.source, List.mem_range.mpr (lt_and_mem_of_cell? hcell).1, ?_⟩
    exact mem_transitionsFrom.mpr ⟨rfl, hcell⟩

theorem mem_edges (h : t.Regular) {states : List State} {e : Edge} :
    e ∈ (Graph.ofTrace states t).edges ↔ (∃ x, t.cell? e.source x = some e.target) ∧
      e.symbols = t.symbolsBetween e.source e.target := by
  rw [edges_eq h, List.mem_flatMap]
  constructor
  · rintro ⟨i, -, he⟩
    obtain ⟨rfl, hcell⟩ := mem_edgesFrom.mp he
    exact hcell
  · rintro ⟨⟨x, hx⟩, hsymbols⟩
    refine ⟨e.source, List.mem_range.mpr (lt_and_mem_of_cell? hx).1, ?_⟩
    exact mem_edgesFrom.mpr ⟨rfl, ⟨x, hx⟩, hsymbols⟩

theorem nodup_transitions (h : t.Regular) : t.transitions.Nodup := by
  rw [transitions_eq h]
  refine nodup_flatMap_of_part (·.source) List.nodup_range (fun i _ => ?_)
    fun i _ tr htr => (mem_transitionsFrom.mp htr).1
  refine h.nodup_columns.filterMap fun x y tr hx hy => ?_
  obtain ⟨_, -, rfl⟩ := Option.map_eq_some_iff.mp hx
  obtain ⟨_, -, he⟩ := Option.map_eq_some_iff.mp hy
  exact (congrArg Transition.symbol he).symm

/-- The targets of the transitions are what the cells show, row by row. -/
theorem map_target_transitions (h : t.Regular) :
    t.transitions.map (·.target) = t.rows.flatten.filterMap id := by
  rw [transitions, List.map_flatten, List.filterMap_flatten]
  refine congrArg List.flatten (List.ext_getElem? fun i => ?_)
  rw [List.getElem?_map, List.getElem?_mapIdx, List.getElem?_map]
  cases hrow : t.rows[i]? with
  | none => rfl
  | some row =>
    have htargets : ∀ f : Symbol → Option Nat,
        (t.rowTransitions i (t.columns.map f)).map (·.target) =
          (t.columns.map f).filterMap id := by
      intro f
      rw [rowTransitions_map, List.map_filterMap, List.filterMap_map]
      refine List.filterMap_congr fun x _ => ?_
      rw [Option.map_map]
      exact Option.map_id'
    refine congrArg some ?_
    rw [h.row_eq i row hrow]
    exact htargets (t.cell? i)

/-- There are as many transitions as cells that show something. -/
theorem length_transitions (h : t.Regular) :
    t.transitions.length = t.rows.flatten.countP (·.isSome) := by
  rw [← List.length_map, map_target_transitions h, List.length_filterMap_eq_countP]
  rfl

/-- There is one edge from a state to another. -/
theorem nodup_edges (h : t.Regular) (states : List State) :
    ((Graph.ofTrace states t).edges.map (·.ends)).Nodup := by
  rw [edges_eq h, List.map_flatMap]
  refine nodup_flatMap_of_part (·.1) List.nodup_range (fun i _ => ?_) fun i _ k hk => ?_
  · rw [edgesFrom, List.map_map]
    exact (SortedSet.nodup_toList _).map fun j j' he => congrArg Prod.snd he
  · obtain ⟨e, he, rfl⟩ := List.mem_map.mp hk
    exact (mem_edgesFrom.mp he).1

/-- The transitions from a state to another go by the symbols between them. -/
theorem map_symbol_filter_ends (h : t.Regular) (hi : i < t.rows.length) :
    (t.transitions.filter fun tr => tr.ends = (i, j)).map (·.symbol) = t.symbolsBetween i j := by
  have hothers : ∀ i' ≠ i, ∀ tr ∈ t.transitionsFrom i', decide (tr.ends = (i, j)) = false := by
    intro i' hne tr htr
    refine decide_eq_false fun he => hne ?_
    exact (mem_transitionsFrom.mp htr).1.symm.trans (congrArg Prod.fst he)
  rw [transitions_eq h, filter_flatMap_eq (List.mem_range.mpr hi) List.nodup_range hothers,
    transitionsFrom, List.filter_filterMap, List.map_filterMap, symbolsBetween,
    ← List.filterMap_eq_filter]
  refine List.filterMap_congr fun x _ => ?_
  rw [Option.guard]
  cases hx : t.cell? i x with
  | none => rfl
  | some k =>
    by_cases hk : k = j
    · simp [Option.filter, Transition.ends, hk]
    · simp [Option.filter, Transition.ends, hk]

end Trace

namespace Graph

variable {t : Trace} {states : List State}

theorem exists_edge_iff (h : t.Regular) {i j : Nat} :
    (∃ e ∈ (ofTrace states t).edges, e.ends = (i, j)) ↔ ∃ x, t.cell? i x = some j := by
  constructor
  · rintro ⟨e, he, hends⟩
    obtain ⟨hcell, -⟩ := (Trace.mem_edges h).mp he
    cases hends
    exact hcell
  · rintro ⟨x, hx⟩
    exact ⟨⟨i, j, t.symbolsBetween i j⟩, (Trace.mem_edges h).mpr ⟨⟨x, hx⟩, rfl⟩, rfl⟩

/-- Edges connect the states that transitions connect. -/
theorem mem_ends_iff (h : t.Regular) {k : Nat × Nat} :
    k ∈ (ofTrace states t).edges.map (·.ends) ↔ k ∈ t.transitions.map (·.ends) := by
  obtain ⟨i, j⟩ := k
  rw [List.mem_map, exists_edge_iff h, List.mem_map]
  constructor
  · rintro ⟨x, hx⟩
    exact ⟨⟨i, x, j⟩, (Trace.mem_transitions h).mpr hx, rfl⟩
  · rintro ⟨tr, htr, hends⟩
    cases hends
    exact ⟨tr.symbol, (Trace.mem_transitions h).mp htr⟩

end Graph

namespace Grammar

/-- The graph of the canonical collection. -/
def graph (g : Grammar) : Graph := .ofTrace g.collection.states g.collection.trace

theorem regular_trace (g : Grammar) : g.collection.trace.Regular :=
  Trace.regular_ofMoves (SortedSet.nodup_toList g.symbols) g.found.moves

theorem length_rows (g : Grammar) :
    g.collection.trace.rows.length = g.collection.states.length := by
  rw [collection_eq_found, Trace.ofMoves, List.length_map]
  exact (searched_found g).2

end Grammar

end LRZero
