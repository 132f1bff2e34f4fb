import LRZero.SetTable

/-!
# Systems of inclusions

Both families of sets are solutions of inclusions: the set of a key contains
either a given set or the set of another key.  A system is solved by passes.
Within a pass every inclusion is used once, in order, on the table as the
ones before it have left it; the passes end with the first that changes
nothing.  All tables along the way are kept.

A pass never takes a symbol away and brings none from outside the system, so
what the table lacks of the symbols in sight gets less with every pass that
changes something.
-/

namespace LRZero

/-- What a set has to contain. -/
inductive Source
  /-- A set known beforehand. -/
  | given (s : SymbolSet)
  /-- The set of a key. -/
  | key (k : Symbol)
deriving DecidableEq

/-- The set of `target` contains the members of `source`. -/
structure Inclusion where
  target : Symbol
  source : Source
deriving DecidableEq

/-- The members of a source, going by a table. -/
def Source.value (t : SetTable) : Source → SymbolSet
  | .given s => s
  | .key k => t.get k

namespace Inclusion

/-- The table with one inclusion made good. -/
def enforce (t : SetTable) (i : Inclusion) : SetTable := t.absorb i.target (i.source.value t)

/-- The table after every inclusion has been used once. -/
def pass (sys : List Inclusion) (t : SetTable) : SetTable := sys.foldl enforce t

/-- The symbols given by the sources of a system. -/
def givenSymbols (sys : List Inclusion) : SymbolSet :=
  sys.foldl (fun s i => match i.source with | .given g => s ∪ g | .key _ => s) ∅

/-- The symbols in a system or in a table. -/
def symbolsInSight (sys : List Inclusion) (t : SetTable) : SymbolSet :=
  givenSymbols sys ∪ t.symbols

/-! ## A pass that changes something makes progress -/

theorem mem_givenSymbols {sys : List Inclusion} {a : Option Symbol} :
    a ∈ givenSymbols sys ↔ ∃ i ∈ sys, ∃ g, i.source = .given g ∧ a ∈ g := by
  have : ∀ (l : List Inclusion) (s : SymbolSet),
      a ∈ l.foldl (fun s i => match i.source with | .given g => s ∪ g | .key _ => s) s ↔
        a ∈ s ∨ ∃ i ∈ l, ∃ g, i.source = .given g ∧ a ∈ g := by
    intro l
    induction l with
    | nil => simp
    | cons i l ih =>
      intro s
      obtain ⟨k, source⟩ := i
      cases source <;> simp [ih, or_assoc]
  simp [givenSymbols, this]

theorem value_subset {t : SetTable} {u : SymbolSet} (ht : t.symbols ⊆ u) :
    ∀ source : Source, (∀ g, source = .given g → g ⊆ u) → source.value t ⊆ u
  | .given g, h => h g rfl
  | .key k, _ => by
    intro a ha
    apply ht
    simp only [Source.value, SetTable.get] at ha
    cases h : t.get? k with
    | none => simp [h] at ha
    | some v =>
      rw [h] at ha
      exact SetTable.mem_symbols.mpr ⟨(k, v), SetTable.mem_entries_of_get? h, ha⟩

theorem value_subset_inSight {sys : List Inclusion} {u : SymbolSet} {t : SetTable}
    (hsys : givenSymbols sys ⊆ u) (ht : t.symbols ⊆ u) {i : Inclusion} (hi : i ∈ sys) :
    i.source.value t ⊆ u :=
  value_subset ht _ fun g hg a ha => hsys a (mem_givenSymbols.mpr ⟨i, hi, g, hg, ha⟩)

theorem symbols_enforce_subset {u : SymbolSet} {t : SetTable} {i : Inclusion}
    (ht : t.symbols ⊆ u) (hi : i.source.value t ⊆ u) : (enforce t i).symbols ⊆ u := fun a ha =>
  (SetTable.symbols_absorb_subset t _ _ ha).elim (ht a) (hi a)

/-- In a pass the table keeps its symbols and gets none from outside `u`;
what it lacks of `u` gets no more, and less where the table changes. -/
theorem pass_progress {u : SymbolSet} :
    ∀ (sys : List Inclusion), givenSymbols sys ⊆ u → ∀ t : SetTable, t.symbols ⊆ u →
      t.symbols ⊆ (pass sys t).symbols ∧ (pass sys t).symbols ⊆ u ∧
        SetTable.lacking u (pass sys t) ≤ SetTable.lacking u t ∧
        (pass sys t ≠ t → SetTable.lacking u (pass sys t) < SetTable.lacking u t)
  | [], _, t, ht => ⟨fun _ h => h, ht, Nat.le_refl _, fun h => absurd rfl h⟩
  | i :: sys, hsys, t, ht => by
    have hi := value_subset_inSight hsys ht (i := i) List.mem_cons_self
    have hsys' : givenSymbols sys ⊆ u := fun a ha => hsys a (by
      obtain ⟨j, hj, g, hg, hag⟩ := mem_givenSymbols.mp ha
      exact mem_givenSymbols.mpr ⟨j, List.mem_cons_of_mem _ hj, g, hg, hag⟩)
    obtain ⟨hkeep, hin, hle, hlt⟩ :=
      pass_progress sys hsys' (enforce t i) (symbols_enforce_subset ht hi)
    have hstep := SetTable.lacking_absorb_le t i.target hi
    refine ⟨fun a ha => hkeep a (SetTable.symbols_subset_absorb t _ _ a ha), hin,
      Nat.le_trans hle hstep, fun hne => ?_⟩
    by_cases he : enforce t i = t
    · have hpass : pass (i :: sys) t = pass sys (enforce t i) := rfl
      rw [he] at hlt hpass
      rw [hpass] at hne ⊢
      exact hlt hne
    · exact Nat.lt_of_le_of_lt hle (SetTable.lacking_absorb_lt hi he)

/-- The symbols in sight are the same after a pass. -/
theorem symbolsInSight_pass (sys : List Inclusion) (t : SetTable) :
    symbolsInSight sys (pass sys t) = symbolsInSight sys t := by
  obtain ⟨hkeep, hin, -, -⟩ := pass_progress (u := symbolsInSight sys t) sys
    (fun _ h => SortedSet.mem_union.mpr (.inl h)) t (fun _ h => SortedSet.mem_union.mpr (.inr h))
  apply SortedSet.ext
  intro a
  constructor
  · intro h
    rcases SortedSet.mem_union.mp h with h | h
    · exact SortedSet.mem_union.mpr (.inl h)
    · exact hin a h
  · intro h
    rcases SortedSet.mem_union.mp h with h | h
    · exact SortedSet.mem_union.mpr (.inl h)
    · exact SortedSet.mem_union.mpr (.inr (hkeep a h))

/-- What a table lacks of the symbols in sight. -/
def remaining (sys : List Inclusion) (t : SetTable) : Nat :=
  SetTable.lacking (symbolsInSight sys t) t

theorem remaining_pass_lt {sys : List Inclusion} {t : SetTable} (h : pass sys t ≠ t) :
    remaining sys (pass sys t) < remaining sys t := by
  unfold remaining
  rw [symbolsInSight_pass]
  exact (pass_progress sys (fun _ h => SortedSet.mem_union.mpr (.inl h)) t
    (fun _ h => SortedSet.mem_union.mpr (.inr h))).2.2.2 h

/-! ## Solving by passes -/

/-- The tables after the first pass, the second, and so on, up to and with
the first that has changed nothing. -/
def passes (sys : List Inclusion) (t : SetTable) : List SetTable :=
  if pass sys t = t then [pass sys t] else pass sys t :: passes sys (pass sys t)
termination_by remaining sys t
decreasing_by exact remaining_pass_lt (by assumption)

theorem passes_ne_nil (sys : List Inclusion) (t : SetTable) : passes sys t ≠ [] := by
  rw [passes]; split <;> simp

/-- The table that the passes end with. -/
def solution (sys : List Inclusion) (t : SetTable) : SetTable :=
  (passes sys t).getLast (passes_ne_nil sys t)

end Inclusion

end LRZero
