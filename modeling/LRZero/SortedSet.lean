/-!
# Sets in canonical form

A `SortedSet α` is a strictly increasing list, so two sets with the same
members are EQUAL, and the list is the order in which every answer of the
library shows a set.  The declared symbols of a grammar, its FIRST and
FOLLOW sets and the key of a state are all such sets.

Main statements: `SortedSet.ext` (members determine the set) and one
membership equation per operation.
-/

namespace LRZero

/-- A finite set, kept as the strictly increasing list of its members. -/
structure SortedSet (α : Type) [Ord α] where
  /-- The members, each once, in increasing order. -/
  toList : List α
  sorted : toList.Pairwise (fun a b => compare a b = .lt)
deriving DecidableEq

namespace SortedSet

variable {α : Type} [Ord α]

instance : Membership α (SortedSet α) := ⟨fun s a => a ∈ s.toList⟩

instance : HasSubset (SortedSet α) := ⟨fun s t => ∀ a, a ∈ s → a ∈ t⟩

instance : EmptyCollection (SortedSet α) := ⟨⟨[], .nil⟩⟩

instance : Inhabited (SortedSet α) := ⟨∅⟩

instance [DecidableEq α] (a : α) (s : SortedSet α) : Decidable (a ∈ s) :=
  inferInstanceAs (Decidable (a ∈ s.toList))

/-- The number of members. -/
def size (s : SortedSet α) : Nat := s.toList.length

@[simp] theorem mem_toList {a : α} {s : SortedSet α} : a ∈ s.toList ↔ a ∈ s := .rfl

@[simp] theorem not_mem_empty (a : α) : a ∉ (∅ : SortedSet α) := List.not_mem_nil

theorem toList_inj {s t : SortedSet α} : s.toList = t.toList ↔ s = t := by
  cases s
  cases t
  simp

theorem subset_def {s t : SortedSet α} : s ⊆ t ↔ ∀ a, a ∈ s → a ∈ t := .rfl

instance : Singleton α (SortedSet α) := ⟨fun a => ⟨[a], List.pairwise_singleton _ a⟩⟩

/-- The members that pass a test. -/
def filter (p : α → Bool) (s : SortedSet α) : SortedSet α :=
  ⟨s.toList.filter p, s.sorted.filter p⟩

@[simp] theorem mem_singleton {a x : α} : x ∈ ({a} : SortedSet α) ↔ x = a :=
  List.mem_singleton

@[simp] theorem mem_filter {p : α → Bool} {s : SortedSet α} {x : α} :
    x ∈ s.filter p ↔ x ∈ s ∧ p x = true :=
  List.mem_filter

/-! ## Members determine the set -/

section

variable [Std.OrientedOrd α]

theorem nodup_toList (s : SortedSet α) : s.toList.Nodup :=
  s.sorted.imp fun h e => by subst e; simp [Std.ReflOrd.compare_self] at h

private theorem eq_of_same_members :
    ∀ {l m : List α}, l.Pairwise (fun a b => compare a b = .lt) →
      m.Pairwise (fun a b => compare a b = .lt) → (∀ x, x ∈ l ↔ x ∈ m) → l = m
  | [], [], _, _, _ => rfl
  | [], b :: m, _, _, h => absurd ((h b).mpr List.mem_cons_self) List.not_mem_nil
  | a :: l, [], _, _, h => absurd ((h a).mp List.mem_cons_self) List.not_mem_nil
  | a :: l, b :: m, hl, hm, h => by
    rw [List.pairwise_cons] at hl hm
    have irrefl : ∀ x : α, compare x x ≠ .lt := by simp
    have hab : a = b := by
      rcases List.mem_cons.mp ((h a).mp List.mem_cons_self) with e | ha
      · exact e
      · rcases List.mem_cons.mp ((h b).mpr List.mem_cons_self) with e | hb
        · exact e.symm
        · have h₁ := hm.1 a ha
          have h₂ := hl.1 b hb
          rw [Std.OrientedOrd.eq_swap, h₁] at h₂
          exact absurd h₂ (by decide)
    subst hab
    have : l = m := by
      apply eq_of_same_members hl.2 hm.2
      intro x
      constructor
      · intro hx
        rcases List.mem_cons.mp ((h x).mp (List.mem_cons_of_mem _ hx)) with rfl | hx'
        · exact absurd (hl.1 x hx) (irrefl x)
        · exact hx'
      · intro hx
        rcases List.mem_cons.mp ((h x).mpr (List.mem_cons_of_mem _ hx)) with rfl | hx'
        · exact absurd (hm.1 x hx) (irrefl x)
        · exact hx'
    rw [this]

/-- Two sets with the same members are equal. -/
theorem ext {s t : SortedSet α} (h : ∀ x, x ∈ s ↔ x ∈ t) : s = t := by
  cases s; cases t
  congr 1
  exact eq_of_same_members (by assumption) (by assumption) h

theorem ext_iff {s t : SortedSet α} : s = t ↔ ∀ x, x ∈ s ↔ x ∈ t :=
  ⟨fun h _ => h ▸ .rfl, ext⟩

end

/-! ## Insertion -/

/-- `a` put at its place in an increasing list, unless it is there. -/
def place (a : α) : List α → List α
  | [] => [a]
  | b :: l =>
    match compare a b with
    | .lt => a :: b :: l
    | .eq => b :: l
    | .gt => b :: place a l

theorem mem_place [Std.LawfulEqOrd α] {a x : α} {l : List α} : x ∈ place a l ↔ x = a ∨ x ∈ l := by
  induction l with
  | nil => simp [place]
  | cons b l ih =>
    rw [place]
    split
    · simp
    · next h =>
      have : a = b := Std.LawfulEqCmp.eq_of_compare h
      grind
    · grind

variable [Std.TransOrd α] [Std.LawfulEqOrd α]

theorem place_sorted {a : α} {l : List α}
    (h : l.Pairwise (fun a b => compare a b = .lt)) :
    (place a l).Pairwise (fun a b => compare a b = .lt) := by
  induction l with
  | nil => simp [place]
  | cons b l ih =>
    rw [List.pairwise_cons] at h
    rw [place]
    split
    · next hab =>
      refine List.pairwise_cons.mpr ⟨?_, List.pairwise_cons.mpr h⟩
      intro x hx
      rcases List.mem_cons.mp hx with rfl | hx
      · exact hab
      · exact Std.TransCmp.lt_trans hab (h.1 x hx)
    · exact List.pairwise_cons.mpr h
    · next hab =>
      refine List.pairwise_cons.mpr ⟨?_, ih h.2⟩
      intro x hx
      rcases mem_place.mp hx with rfl | hx
      · exact Std.OrientedCmp.gt_iff_lt.mp hab
      · exact h.1 x hx

/-- The set with one more member. -/
def insert (a : α) (s : SortedSet α) : SortedSet α :=
  ⟨place a s.toList, place_sorted s.sorted⟩

/-- The set of the members of a list. -/
def ofList (l : List α) : SortedSet α := l.foldl (fun s a => s.insert a) ∅

/-- The members of either set. -/
def union (s t : SortedSet α) : SortedSet α := t.toList.foldl (fun s a => s.insert a) s

instance : Union (SortedSet α) := ⟨union⟩

@[simp] theorem mem_insert {a x : α} {s : SortedSet α} : x ∈ s.insert a ↔ x = a ∨ x ∈ s :=
  mem_place

theorem mem_foldl_insert {l : List α} {s : SortedSet α} {x : α} :
    x ∈ l.foldl (fun s a => s.insert a) s ↔ x ∈ s ∨ x ∈ l := by
  induction l generalizing s with
  | nil => simp
  | cons a l ih => grind [mem_insert]

@[simp] theorem mem_ofList {l : List α} {x : α} : x ∈ ofList l ↔ x ∈ l := by
  simp [ofList, mem_foldl_insert]

@[simp] theorem mem_union {s t : SortedSet α} {x : α} : x ∈ s ∪ t ↔ x ∈ s ∨ x ∈ t :=
  mem_foldl_insert

theorem union_eq_left {s t : SortedSet α} : s ∪ t = s ↔ t ⊆ s := by
  rw [ext_iff]
  simp only [mem_union, subset_def]
  grind

end SortedSet

end LRZero
