import LRZero.SortedSet
import LRZero.Count
import LRZero.Symbol
import LRZero.Fault

/-!
# Tables of symbol sets

FIRST and FOLLOW are tables that give a set to each of their keys.  The keys
are fixed when a table is made; afterwards sets only grow, by `absorb`.

Main statements: `keys_absorb`, and `mem_get_absorb`, which says what a key
holds after a set has been absorbed.
-/

namespace LRZero

/-- A set of symbols, in which `none` stands for an empty rule body. -/
abbrev SymbolSet := SortedSet (Option Symbol)

/-- A set for each of the keys. -/
structure SetTable where
  entries : List (Symbol × SymbolSet)
deriving DecidableEq

namespace SetTable

/-- The keys, in the order in which they were given. -/
def keys (t : SetTable) : List Symbol := t.entries.map (·.1)

/-- The set of a key, where there is one. -/
def get? (t : SetTable) (k : Symbol) : Option SymbolSet := t.entries.lookup k

/-- The set of a key; what is no key has the empty set. -/
def get (t : SetTable) (k : Symbol) : SymbolSet := (t.get? k).getD ∅

/-- The set of a key, or the fault of asking for what is no key. -/
def find (t : SetTable) (k : Symbol) : Except Fault SymbolSet :=
  match t.get? k with
  | some s => .ok s
  | none => .error (.noSuchKey k)

/-- The table of empty sets with the given keys, each taken once. -/
def ofKeys (ks : List Symbol) : SetTable := ⟨ks.eraseDups.map fun k => (k, ∅)⟩

/-- The table after the set of a key has taken in another set.  There is no
change where the key is missing. -/
def absorb (t : SetTable) (k : Symbol) (s : SymbolSet) : SetTable :=
  ⟨t.entries.map fun e => if e.1 = k then (e.1, e.2 ∪ s) else e⟩

@[simp] theorem keys_absorb (t : SetTable) (k : Symbol) (s : SymbolSet) :
    (t.absorb k s).keys = t.keys := by
  simp only [keys, absorb, List.map_map]
  apply List.map_congr_left
  intro e _
  by_cases h : e.1 = k <;> simp [h]

private theorem lookup_absorb (k : Symbol) (s : SymbolSet) (x : Symbol) :
    ∀ l : List (Symbol × SymbolSet),
      (l.map fun e => if e.1 = k then (e.1, e.2 ∪ s) else e).lookup x =
        (l.lookup x).map fun v => if x = k then v ∪ s else v
  | [] => rfl
  | (k', v) :: l => by
    have ih := lookup_absorb k s x l
    rw [List.map_cons]
    by_cases hk : k' = k <;> by_cases hx : x = k' <;> grind

theorem get?_absorb (t : SetTable) (k : Symbol) (s : SymbolSet) (x : Symbol) :
    (t.absorb k s).get? x = (t.get? x).map fun v => if x = k then v ∪ s else v :=
  lookup_absorb k s x t.entries

theorem isSome_get? (t : SetTable) (x : Symbol) : (t.get? x).isSome ↔ x ∈ t.keys := by
  obtain ⟨l⟩ := t
  simp only [get?, keys]
  induction l with
  | nil => simp
  | cons e l ih => obtain ⟨k, v⟩ := e; by_cases h : x = k <;> grind

theorem find_eq_ok_iff {t : SetTable} {k : Symbol} {s : SymbolSet} :
    t.find k = .ok s ↔ k ∈ t.keys ∧ t.get k = s := by
  rw [← isSome_get?, find, get]
  cases t.get? k with
  | none => simp
  | some v => simp

theorem find_eq_error {t : SetTable} {k : Symbol} {f : Fault} (h : t.find k = .error f) :
    f = .noSuchKey k := by
  rw [find] at h
  split at h
  · cases h
  · exact (Except.error.inj h).symm

theorem mem_entries_of_get? {t : SetTable} {k : Symbol} {v : SymbolSet} (h : t.get? k = some v) :
    (k, v) ∈ t.entries := by
  obtain ⟨l⟩ := t
  simp only [get?] at h
  induction l with
  | nil => cases h
  | cons e l ih => obtain ⟨k', v'⟩ := e; by_cases hk : k = k' <;> grind

/-- A key holds what it held and, where it is the key that takes in the set,
the members of that set. -/
theorem mem_get_absorb {t : SetTable} {k : Symbol} {s : SymbolSet} {x : Symbol} {a : Option Symbol} :
    a ∈ (t.absorb k s).get x ↔ a ∈ t.get x ∨ (x = k ∧ k ∈ t.keys ∧ a ∈ s) := by
  have hk := t.isSome_get? x
  unfold get
  rw [get?_absorb]
  cases h : t.get? x with
  | none => grind [Option.isSome_none]
  | some v => by_cases hx : x = k <;> grind [SortedSet.mem_union, Option.isSome_some]

/-! ## The symbols in a table -/

/-- All symbols in the sets of the table. -/
def symbols (t : SetTable) : SymbolSet := t.entries.foldl (fun s e => s ∪ e.2) ∅

theorem mem_symbols {t : SetTable} {a : Option Symbol} :
    a ∈ t.symbols ↔ ∃ e ∈ t.entries, a ∈ e.2 := by
  have : ∀ (l : List (Symbol × SymbolSet)) (s : SymbolSet),
      a ∈ l.foldl (fun s e => s ∪ e.2) s ↔ a ∈ s ∨ ∃ e ∈ l, a ∈ e.2 := by
    intro l
    induction l with
    | nil => simp
    | cons e l ih => intro s; simp [ih, or_assoc]
  simp [symbols, this]

theorem symbols_subset_absorb (t : SetTable) (k : Symbol) (s : SymbolSet) :
    t.symbols ⊆ (t.absorb k s).symbols := by
  intro a
  simp only [mem_symbols, absorb, List.mem_map]
  rintro ⟨e, he, ha⟩
  refine ⟨_, ⟨e, he, rfl⟩, ?_⟩
  split
  · exact SortedSet.mem_union.mpr (.inl ha)
  · exact ha

theorem symbols_absorb_subset (t : SetTable) (k : Symbol) (s : SymbolSet) {a : Option Symbol}
    (h : a ∈ (t.absorb k s).symbols) : a ∈ t.symbols ∨ a ∈ s := by
  simp only [mem_symbols, absorb, List.mem_map] at h ⊢
  obtain ⟨_, ⟨e, he, rfl⟩, ha⟩ := h
  split at ha
  · rcases SortedSet.mem_union.mp ha with ha | ha
    · exact .inl ⟨e, he, ha⟩
    · exact .inr ha
  · exact .inl ⟨e, he, ha⟩

/-! ## What a table lacks

Of a finite universe of symbols every key lacks only so many, and each change
of the table takes at least one of them away. -/

/-- How many pairs of a key and a member of `u` are not in the table. -/
def lacking (u : SymbolSet) (t : SetTable) : Nat :=
  t.entries.foldr (fun e n => (u.toList.countP fun a => decide (a ∉ e.2)) + n) 0

private theorem lacking_absorb_aux (u : SymbolSet) (k : Symbol) (s : SymbolSet) (hs : s ⊆ u) :
    ∀ l : List (Symbol × SymbolSet),
      let l' := l.map fun e => if e.1 = k then (e.1, e.2 ∪ s) else e
      lacking u ⟨l'⟩ ≤ lacking u ⟨l⟩ ∧ (l' ≠ l → lacking u ⟨l'⟩ < lacking u ⟨l⟩)
  | [] => by simp
  | (k', v) :: l => by
    obtain ⟨hle, hlt⟩ := lacking_absorb_aux u k s hs l
    simp only [lacking, List.map_cons, List.foldr_cons] at hle hlt ⊢
    by_cases hk : k' = k
    · rw [if_pos hk]
      dsimp only
      by_cases hsv : s ⊆ v
      · rw [SortedSet.union_eq_left.mpr hsv]
        refine ⟨by omega, fun hne => ?_⟩
        have := hlt fun e => hne (by rw [e])
        omega
      · have : ∃ x, x ∈ s ∧ x ∉ v := by
          rw [SortedSet.subset_def] at hsv
          simpa using hsv
        obtain ⟨x, hxs, hxv⟩ := this
        have := countP_lt_countP (p := fun a => decide (a ∉ v ∪ s)) (q := fun a => decide (a ∉ v))
          (l := u.toList) (by simp only [SortedSet.mem_union]; grind) (hs x hxs)
          (by simpa using hxv) (by simp [hxs])
        omega
    · rw [if_neg hk]
      dsimp only
      refine ⟨by omega, fun hne => ?_⟩
      have := hlt fun e => hne (by rw [e])
      omega

theorem lacking_absorb_le {u : SymbolSet} (t : SetTable) (k : Symbol) {s : SymbolSet}
    (hs : s ⊆ u) : lacking u (t.absorb k s) ≤ lacking u t :=
  (lacking_absorb_aux u k s hs t.entries).1

theorem lacking_absorb_lt {u : SymbolSet} {t : SetTable} {k : Symbol} {s : SymbolSet}
    (hs : s ⊆ u) (h : t.absorb k s ≠ t) : lacking u (t.absorb k s) < lacking u t :=
  (lacking_absorb_aux u k s hs t.entries).2 fun e => h (by
    obtain ⟨l⟩ := t
    exact congrArg SetTable.mk e)

end SetTable

end LRZero
