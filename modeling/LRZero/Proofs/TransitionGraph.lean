import LRZero.Proofs.CellsAndEdges

/-!
# What the graph shows of its table

A graph keeps one edge from a state to another and writes all symbols that lead
there on it.  Drawing the transitions as they come, each symbol written behind
what its edge has already, gives the edges that are read off the cells (`drawn`):
what stands on an edge at any time are the symbols of its transitions so far
(`foldl_draw`).

A comma and a space part the symbols on an edge.  Symbols without spaces can be
read off it again, whatever commas they hold or end in, for the two characters
next to each other cannot come up in such a symbol, nor where it meets the next
comma (`pieces_intercalate`).

Main statement: `graph_of_collection`.
-/

namespace LRZero

/-! ## Texts cut at commas with a space behind them -/

namespace Text

/-- The pieces between commas that have a space behind them, from the left. -/
def piecesOf : List Char → List (List Char)
  | [] => [[]]
  | ',' :: ' ' :: cs => [] :: piecesOf cs
  | c :: cs => (piecesOf cs).modifyHead (c :: ·)

/-- A text cut at each comma with a space behind it. -/
def pieces (s : String) : List String := (piecesOf s.toList).map String.ofList

theorem piecesOf_cons {c : Char} {cs : List Char} (h : cs.head? ≠ some ' ') :
    piecesOf (c :: cs) = (piecesOf cs).modifyHead (c :: ·) := by
  rw [piecesOf]
  rintro cs' - rfl
  exact h rfl

/-- Up to the first comma behind a list without spaces there is nothing to cut. -/
theorem piecesOf_append : ∀ {u : List Char} (cs : List Char), ' ' ∉ u →
    piecesOf (u ++ ',' :: ' ' :: cs) = u :: piecesOf cs
  | [], _, _ => rfl
  | c :: u, cs, h => by
    have hu : ' ' ∉ u := fun hmem => h (List.mem_cons_of_mem _ hmem)
    have hhead : (u ++ ',' :: ' ' :: cs).head? ≠ some ' ' := by
      cases u with
      | nil =>
        intro he
        cases he
      | cons d u =>
        intro he
        cases he
        exact hu List.mem_cons_self
    rw [List.cons_append, piecesOf_cons hhead, piecesOf_append cs hu]
    rfl

theorem piecesOf_of_not_mem : ∀ {u : List Char}, ' ' ∉ u → piecesOf u = [u]
  | [], _ => rfl
  | c :: u, h => by
    have hu : ' ' ∉ u := fun hmem => h (List.mem_cons_of_mem _ hmem)
    have hhead : u.head? ≠ some ' ' := fun he => hu (List.mem_of_head? he)
    rw [piecesOf_cons hhead, piecesOf_of_not_mem hu]
    rfl

/-- Texts without spaces that commas and spaces join are found again. -/
theorem pieces_intercalate : ∀ {xs : List String}, xs ≠ [] → (∀ x ∈ xs, ' ' ∉ x.toList) →
    pieces (", ".intercalate xs) = xs
  | [x], _, h => by
    rw [String.intercalate_singleton, pieces, piecesOf_of_not_mem (h x List.mem_cons_self),
      List.map_singleton, String.ofList_toList]
  | x :: y :: xs, _, h => by
    have ih := pieces_intercalate (List.cons_ne_nil y xs) fun z hz =>
      h z (List.mem_cons_of_mem _ hz)
    have hjoin : (", ".intercalate (x :: y :: xs)).toList =
        x.toList ++ ',' :: ' ' :: (", ".intercalate (y :: xs)).toList := by
      rw [String.intercalate_cons_cons, String.toList_append, String.toList_append,
        List.append_assoc]
      rfl
    rw [pieces, hjoin, piecesOf_append _ (h x List.mem_cons_self), List.map_cons,
      String.ofList_toList]
    exact congrArg (x :: ·) ih

/-- A comma that ends a symbol stays with it. -/
example : pieces (", ".intercalate ["a,", ",", "b"]) = ["a,", ",", "b"] := by decide

end Text

/-! ## Drawing the transitions one by one -/

/-- One more transition on a sheet of edges and their labels.  An edge that is
there gets the symbol behind what it has, and else there is a new one. -/
def draw : List ((Nat × Nat) × String) → Transition → List ((Nat × Nat) × String)
  | [], t => [(t.ends, t.symbol)]
  | (k, label) :: sheet, t =>
    if k = t.ends then (k, label ++ (", " ++ t.symbol)) :: sheet else (k, label) :: draw sheet t

/-- The symbols of all transitions that lead from one state to another. -/
def joined (ts : List Transition) (k : Nat × Nat) : String :=
  ", ".intercalate ((ts.filter fun t => t.ends = k).map (·.symbol))

section

variable {ts : List Transition} {t : Transition} {k : Nat × Nat}

theorem draw_of_not_mem : ∀ {sheet : List ((Nat × Nat) × String)}, t.ends ∉ sheet.map (·.1) →
    draw sheet t = sheet ++ [(t.ends, t.symbol)]
  | [], _ => rfl
  | (k, label) :: sheet, h => by
    rw [List.map_cons, List.mem_cons, not_or] at h
    rw [draw, if_neg (Ne.symm h.1), draw_of_not_mem h.2]
    rfl

theorem draw_of_mem {label : Nat × Nat → String} : ∀ {ks : List (Nat × Nat)}, ks.Nodup →
    t.ends ∈ ks → draw (ks.map fun k => (k, label k)) t =
      ks.map fun k => (k, if k = t.ends then label k ++ (", " ++ t.symbol) else label k)
  | [], _, h => absurd h List.not_mem_nil
  | k :: ks, hnodup, h => by
    obtain ⟨hk, hnodup⟩ := List.nodup_cons.mp hnodup
    rw [List.map_cons, List.map_cons, draw]
    by_cases he : k = t.ends
    · rw [if_pos he, if_pos he]
      refine congrArg _ (List.map_congr_left fun k' hk' => ?_)
      have hne : k' ≠ t.ends := by
        rintro rfl
        exact hk (he ▸ hk')
      rw [if_neg hne]
    · have hks : t.ends ∈ ks := (List.mem_cons.mp h).resolve_left (Ne.symm he)
      rw [if_neg he, if_neg he, draw_of_mem hnodup hks]

theorem joined_concat_of_ne (h : k ≠ t.ends) : joined (ts ++ [t]) k = joined ts k := by
  have hnone : [t].filter (fun t => decide (t.ends = k)) = [] := by
    rw [List.filter_singleton, decide_eq_false (Ne.symm h), cond_false]
  rw [joined, List.filter_append, hnone, List.append_nil, joined]

theorem joined_concat (ts : List Transition) (t : Transition) : joined (ts ++ [t]) t.ends =
    if t.ends ∈ ts.map (·.ends) then joined ts t.ends ++ (", " ++ t.symbol) else t.symbol := by
  have hone : [t].filter (fun t' => decide (t'.ends = t.ends)) = [t] := by
    rw [List.filter_singleton, decide_eq_true rfl, cond_true]
  rw [joined, List.filter_append, hone, List.map_append, List.map_singleton]
  split
  · next h =>
    obtain ⟨t', ht', he⟩ := List.mem_map.mp h
    have hne : (ts.filter fun t' => decide (t'.ends = t.ends)).map (·.symbol) ≠ [] := by
      intro hnil
      exact List.filter_eq_nil_iff.mp (List.map_eq_nil_iff.mp hnil) t' ht' (decide_eq_true he)
    rw [String.intercalate_append_of_ne_nil hne (List.cons_ne_nil _ _),
      String.intercalate_singleton, String.append_assoc, joined]
  · next h =>
    have hnil : (ts.filter fun t' => decide (t'.ends = t.ends)) = [] := by
      refine List.filter_eq_nil_iff.mpr fun t' ht' he => h ?_
      exact List.mem_map.mpr ⟨t', ht', of_decide_eq_true he⟩
    rw [hnil, List.map_nil, List.nil_append, String.intercalate_singleton]

/-- Drawn one by one, transitions leave an edge for each pair of states, in the
order in which the pairs come up, with the symbols of all its transitions. -/
theorem foldl_draw (ts : List Transition) :
    ts.foldl draw [] = (ts.map (·.ends)).eraseDups.map fun k => (k, joined ts k) := by
  induction ts using List.reverseRecOn with
  | nil => rfl
  | append_singleton ts t ih =>
    rw [List.foldl_append, List.foldl_cons, List.foldl_nil, ih, List.map_append,
      List.map_singleton]
    by_cases h : t.ends ∈ ts.map (·.ends)
    -- an edge is there: its label is the only one that changes
    · rw [eraseDups_concat_of_mem h, draw_of_mem (nodup_eraseDups _) (List.mem_eraseDups.mpr h)]
      refine List.map_congr_left fun k _ => congrArg (k, ·) ?_
      by_cases hk : k = t.ends
      · rw [if_pos hk, hk, joined_concat, if_pos h]
      · rw [if_neg hk, joined_concat_of_ne hk]
    -- a new edge, behind all others
    · have hfresh : t.ends ∉
          ((ts.map (·.ends)).eraseDups.map fun k => (k, joined ts k)).map (·.1) := by
        rw [List.map_map]
        intro hmem
        obtain ⟨k, hk, rfl⟩ := List.mem_map.mp hmem
        exact h (List.mem_eraseDups.mp hk)
      rw [eraseDups_concat_of_not_mem h, draw_of_not_mem hfresh, List.map_append,
        List.map_singleton, joined_concat, if_neg h]
      refine congrArg (· ++ _) (List.map_congr_left fun k hk => congrArg (k, ·) ?_)
      refine (joined_concat_of_ne ?_).symm
      rintro rfl
      exact h (List.mem_eraseDups.mp hk)

end

/-! ## The graph of the canonical collection -/

theorem State.sortedTexts_perm (s : State) : s.sortedTexts.Perm s.texts := List.mergeSort_perm _ _

theorem State.pairwise_sortedTexts (s : State) : s.sortedTexts.Pairwise (· ≤ ·) := by
  have htrans : ∀ a b c : String, decide (a ≤ b) → decide (b ≤ c) → decide (a ≤ c) :=
    fun a b c hab hbc =>
      decide_eq_true (String.le_trans (of_decide_eq_true hab) (of_decide_eq_true hbc))
  have htotal : ∀ a b : String, (decide (a ≤ b) || decide (b ≤ a)) = true := by
    intro a b
    rw [Bool.or_eq_true, decide_eq_true_eq, decide_eq_true_eq]
    exact String.le_total a b
  exact (List.pairwise_mergeSort htrans htotal s.texts).imp of_decide_eq_true

/-- The transitions read off an edge when its label is cut. -/
def Edge.read (e : Edge) : List Transition :=
  (Text.pieces e.label).map fun x => ⟨e.source, x, e.target⟩

namespace Graph

/-- The graph shows these states and this table. -/
structure Shows (graph : Graph) (states : List State) (t : Trace) : Prop where
  /-- There is a node for each state and no other. -/
  numbers : graph.nodes.map (·.number) = (List.range states.length).map Int.ofNat
  /-- It has the texts of the items, in order. -/
  texts : ∀ (i : Nat) (s : State), states[i]? = some s → ∃ node, graph.nodes[i]? = some node ∧
    node.texts.Perm s.texts ∧ node.texts.Pairwise (· ≤ ·)
  /-- Edges lead from nodes to nodes, so drawing them adds none. -/
  ends_lt : ∀ e ∈ graph.edges, e.source < states.length ∧ e.target < states.length
  nodup_ends : (graph.edges.map (·.ends)).Nodup
  exists_edge_iff : ∀ i j : Nat, (∃ e ∈ graph.edges, e.ends = (i, j)) ↔ ∃ x, t.cell? i x = some j
  symbols : ∀ e ∈ graph.edges, (∀ x, x ∈ e.symbols ↔ t.cell? e.source x = some e.target) ∧
    e.symbols.Sublist t.columns
  label : ∀ e ∈ graph.edges, e.label = ", ".intercalate e.symbols
  /-- The edges and labels are those drawn transition by transition. -/
  drawn : (graph.edges.map fun e => (e.ends, e.label)).Perm (t.transitions.foldl draw [])

variable {t : Trace} {states : List State}

/-- What is drawn transition by transition are the edges and their labels. -/
theorem drawn (h : t.Regular) : ((ofTrace states t).edges.map fun e => (e.ends, e.label)).Perm
    (t.transitions.foldl draw []) := by
  have hlabel : ∀ e ∈ (ofTrace states t).edges, (e.ends, e.label) =
      (e.ends, joined t.transitions e.ends) := by
    intro e he
    obtain ⟨⟨x, hx⟩, hsymbols⟩ := (Trace.mem_edges h).mp he
    rw [Edge.label, joined, Edge.ends,
      Trace.map_symbol_filter_ends h (Trace.lt_and_mem_of_cell? hx).1, hsymbols]
  have hends : ((ofTrace states t).edges.map (·.ends)).Perm
      (t.transitions.map (·.ends)).eraseDups := by
    rw [List.perm_ext_iff_of_nodup (Trace.nodup_edges h states) (nodup_eraseDups _)]
    intro k
    rw [mem_ends_iff h, List.mem_eraseDups]
  rw [foldl_draw, List.map_congr_left hlabel]
  have hmap := hends.map fun k => (k, joined t.transitions k)
  rwa [List.map_map] at hmap

theorem pieces_label (h : t.Regular) (hspace : ∀ x ∈ t.columns, ' ' ∉ x.toList) {e : Edge}
    (he : e ∈ (ofTrace states t).edges) : Text.pieces e.label = e.symbols := by
  obtain ⟨⟨x, hx⟩, hsymbols⟩ := (Trace.mem_edges h).mp he
  rw [Edge.label, hsymbols]
  refine Text.pieces_intercalate (List.ne_nil_of_mem (Trace.mem_symbolsBetween.mpr hx)) ?_
  intro y hy
  exact hspace y (List.mem_filter.mp hy).1

theorem mem_read (h : t.Regular) (hspace : ∀ x ∈ t.columns, ' ' ∉ x.toList) {e : Edge}
    (he : e ∈ (ofTrace states t).edges) {tr : Transition} :
    tr ∈ e.read ↔ tr.ends = e.ends ∧ t.cell? tr.source tr.symbol = some tr.target := by
  obtain ⟨-, hsymbols⟩ := (Trace.mem_edges h).mp he
  rw [Edge.read, pieces_label h hspace he, hsymbols, List.mem_map]
  constructor
  · rintro ⟨x, hx, rfl⟩
    exact ⟨rfl, Trace.mem_symbolsBetween.mp hx⟩
  · rintro ⟨hends, hcell⟩
    obtain ⟨hsource, htarget⟩ := Prod.mk.inj hends
    rw [hsource, htarget] at hcell
    refine ⟨tr.symbol, Trace.mem_symbolsBetween.mpr hcell, ?_⟩
    rw [← hsource, ← htarget]

theorem nodup_read (h : t.Regular) (hspace : ∀ x ∈ t.columns, ' ' ∉ x.toList) :
    ((ofTrace states t).edges.flatMap (·.read)).Nodup := by
  -- a transition tells the edge it is read off
  let edge (tr : Transition) : Edge :=
    ⟨tr.source, tr.target, t.symbolsBetween tr.source tr.target⟩
  refine nodup_flatMap_of_part edge (Trace.nodup_edges h states).of_map (fun e he => ?_)
    fun e he tr htr => ?_
  · obtain ⟨-, hsymbols⟩ := (Trace.mem_edges h).mp he
    rw [Edge.read, pieces_label h hspace he, hsymbols]
    exact (h.nodup_columns.filter _).map fun x y he => congrArg Transition.symbol he
  · obtain ⟨-, hsymbols⟩ := (Trace.mem_edges h).mp he
    obtain ⟨hsource, htarget⟩ := Prod.mk.inj ((mem_read h hspace he).mp htr).1
    show Edge.mk tr.source tr.target (t.symbolsBetween tr.source tr.target) = e
    rw [hsource, htarget, ← hsymbols]

/-- Where no column holds a space, the transitions are read off the edges. -/
theorem read_edges (h : t.Regular) (hspace : ∀ x ∈ t.columns, ' ' ∉ x.toList) :
    ((ofTrace states t).edges.flatMap (·.read)).Perm t.transitions := by
  rw [List.perm_ext_iff_of_nodup (nodup_read h hspace) (Trace.nodup_transitions h)]
  intro tr
  rw [List.mem_flatMap, Trace.mem_transitions h]
  constructor
  · rintro ⟨e, he, htr⟩
    exact ((mem_read h hspace he).mp htr).2
  · intro hcell
    obtain ⟨e, he, hends⟩ := (exists_edge_iff h).mpr ⟨tr.symbol, hcell⟩
    exact ⟨e, he, (mem_read h hspace he).mpr ⟨hends.symm, hcell⟩⟩

end Graph

namespace Grammar

variable {g : Grammar}

theorem shows_graph (g : Grammar) :
    g.graph.Shows g.collection.states g.collection.trace := by
  have hregular := regular_trace g
  obtain ⟨moves, hsearched, -, -⟩ := searched_collection g
  refine ⟨?_, ?_, ?_, Trace.nodup_edges hregular _, ?_, ?_, fun _ _ => rfl, Graph.drawn hregular⟩
  · refine List.ext_getElem? fun i => ?_
    rw [graph, Graph.ofTrace, List.map_map, List.getElem?_map, List.getElem?_map]
    cases hs : g.collection.states[i]? with
    | none =>
      rw [List.getElem?_eq_none]
      · rfl
      · exact Nat.le_trans (Nat.le_of_eq List.length_range) (List.getElem?_eq_none_iff.mp hs)
    | some s =>
      rw [List.getElem?_range (List.getElem?_eq_some_iff.mp hs).1]
      exact congrArg some (hsearched.grown.number i s hs)
  · intro i s hs
    refine ⟨⟨s.number, s.sortedTexts⟩, ?_, s.sortedTexts_perm, s.pairwise_sortedTexts⟩
    rw [graph, Graph.ofTrace, List.getElem?_map, hs]
    rfl
  · intro e he
    obtain ⟨⟨x, hx⟩, -⟩ := (Trace.mem_edges hregular).mp he
    obtain ⟨s, hs⟩ := exists_state_of_cell? hx
    obtain ⟨t, ht⟩ := exists_state_of_target hx
    exact ⟨(List.getElem?_eq_some_iff.mp hs).1, (List.getElem?_eq_some_iff.mp ht).1⟩
  · exact fun i j => Graph.exists_edge_iff hregular
  · intro e he
    obtain ⟨-, hsymbols⟩ := (Trace.mem_edges hregular).mp he
    rw [hsymbols]
    exact ⟨fun x => Trace.mem_symbolsBetween, List.filter_sublist⟩

/-- The graph of any grammar and the table of its transitions.  The transitions
are the cells that show something, each once, row by row in the order of the
columns.  The graph shows the states and all these cells; and when no symbol
holds a space, cutting the labels gives the symbols and with them the
transitions back. -/
theorem graph_of_collection (g : Grammar) :
    g.collection.trace.Regular ∧
    g.collection.trace.rows.length = g.collection.states.length ∧
    g.collection.trace.transitions =
      (List.range g.collection.trace.rows.length).flatMap g.collection.trace.transitionsFrom ∧
    g.collection.trace.transitions.map (·.target) =
      g.collection.trace.rows.flatten.filterMap id ∧
    g.collection.trace.transitions.Nodup ∧
    (∀ tr, tr ∈ g.collection.trace.transitions ↔
      g.collection.trace.cell? tr.source tr.symbol = some tr.target) ∧
    g.graph.Shows g.collection.states g.collection.trace ∧
    ((∀ x ∈ g.symbols, ' ' ∉ x.toList) →
      (∀ e ∈ g.graph.edges, Text.pieces e.label = e.symbols) ∧
      (g.graph.edges.flatMap (·.read)).Perm g.collection.trace.transitions) := by
  have hregular := regular_trace g
  refine ⟨hregular, length_rows g, Trace.transitions_eq hregular,
    Trace.map_target_transitions hregular, Trace.nodup_transitions hregular,
    fun tr => Trace.mem_transitions hregular, shows_graph g, fun hspace => ?_⟩
  exact ⟨fun e he => Graph.pieces_label hregular hspace he, Graph.read_edges hregular hspace⟩

/-- Lists whose items end in a comma, with commas between them. -/
def commas : Grammar where
  start := "LIST"
  terminals := .ofList ["item,", ","]
  nonterminals := .ofList ["LIST"]
  rules := [⟨"LIST", ["item,"]⟩, ⟨"LIST", ["item,", ",", "LIST"]⟩]

/-- An edge from state 0 has a label from which an item is read. -/
theorem graph_of_collection_commas :
    (∀ x ∈ commas.symbols, ' ' ∉ x.toList) ∧
      ∃ e ∈ commas.graph.edges, e.source = 0 ∧ "item," ∈ Text.pieces e.label := by
  have hspace : ∀ x ∈ commas.symbols, ' ' ∉ x.toList := by
    show ∀ x ∈ commas.symbols.toList, ' ' ∉ x.toList
    decide +kernel
  obtain ⟨-, -, -, -, -, -, hshows, hread⟩ := graph_of_collection commas
  obtain ⟨hpieces, -⟩ := hread hspace
  have hrule : ⟨"LIST", ["item,"]⟩ ∈ commas.rulesFor commas.start := by decide
  obtain ⟨j, hj⟩ := exists_cell?_zero hrule rfl
  obtain ⟨e, he, hends⟩ := (hshows.exists_edge_iff 0 j).mpr ⟨_, hj⟩
  obtain ⟨hsource, htarget⟩ := Prod.mk.inj hends
  refine ⟨hspace, e, he, hsource, ?_⟩
  rw [hpieces e he, (hshows.symbols e he).1, hsource, htarget]
  exact hj

end Grammar

end LRZero
