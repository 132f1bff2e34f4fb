import LRZero.Proofs.DistinctItems

/-!
# States as ordered sets

An addition appends an item unless an equal one is there, so additions never
make an item come up twice, and a state built by them from a list without equal
items shows what was put in, each item once and in the order of the first times
(`items_addAll`).  What two such states are compared by is then the set of the
texts put in: equality asks for the numbers of items and for membership one way,
and between lists without repetitions that settles the other way too
(`State.same_iff_key_eq`).

Main statement: `ordered_set_of_additions`.
-/

namespace LRZero

namespace State

variable {s t : State} {i : Item} {is js : List Item} {x : String}

/-- What additions one by one leave. -/
def addAll (s : State) (is : List Item) : State := is.foldl add s

/-- What the additions answer, each whether its item is new. -/
def answers : State → List Item → List Bool
  | _, [] => []
  | s, i :: is => s.isNew i :: answers (s.add i) is

/-! ## One addition -/

theorem isNew_iff_not_holds : s.isNew i ↔ ¬ s.holds i := by
  rw [isNew, Bool.not_eq_true', Bool.not_eq_true]

theorem add_of_holds (h : s.holds i) : s.add i = s := by
  rw [add, if_neg fun hnew => isNew_iff_not_holds.mp hnew h]

theorem add_of_not_holds (h : ¬ s.holds i) : s.add i = { s with items := s.items ++ [i] } := by
  rw [add, if_pos (isNew_iff_not_holds.mpr h)]

theorem texts_add_of_not_holds (h : ¬ s.holds i) : (s.add i).texts = s.texts ++ [i.text] := by
  rw [add_of_not_holds h]
  exact List.map_append

theorem number_add : (s.add i).number = s.number := by
  by_cases h : s.holds i
  · rw [add_of_holds h]
  · rw [add_of_not_holds h]

theorem mem_texts_add : x ∈ (s.add i).texts ↔ x ∈ s.texts ∨ x = i.text := by
  by_cases h : s.holds i
  · rw [add_of_holds h, iff_self_or]
    rintro rfl
    exact holds_iff.mp h
  · rw [texts_add_of_not_holds h, List.mem_append, List.mem_singleton]

theorem nodup_texts_add (hs : s.texts.Nodup) : (s.add i).texts.Nodup := by
  by_cases h : s.holds i
  · rw [add_of_holds h]
    exact hs
  · rw [texts_add_of_not_holds h, List.nodup_append]
    refine ⟨hs, List.nodup_cons.mpr ⟨List.not_mem_nil, .nil⟩, ?_⟩
    intro x hx y hy he
    rw [List.mem_singleton.mp hy] at he
    exact h (holds_iff.mpr (he ▸ hx))

/-! ## Additions one after another -/

theorem addAll_cons : s.addAll (i :: is) = (s.add i).addAll is := rfl

theorem number_addAll : (s.addAll is).number = s.number := by
  induction is generalizing s with
  | nil => rfl
  | cons i is ih => rw [addAll_cons, ih, number_add]

theorem mem_texts_addAll : x ∈ (s.addAll is).texts ↔ x ∈ s.texts ∨ x ∈ is.map (·.text) := by
  induction is generalizing s with
  | nil => simp [addAll]
  | cons i is ih => rw [addAll_cons, ih, mem_texts_add, List.map_cons, List.mem_cons, or_assoc]

/-- What was there at first or has been added. -/
theorem mem_texts_addAll_iff : x ∈ (s.addAll is).texts ↔ ∃ i ∈ s.items ++ is, i.text = x := by
  rw [mem_texts_addAll, texts, ← List.mem_append, ← List.map_append, List.mem_map]

theorem nodup_texts_addAll (hs : s.texts.Nodup) : (s.addAll is).texts.Nodup := by
  induction is generalizing s with
  | nil => exact hs
  | cons i is ih => exact ih (nodup_texts_add hs)

/-- Each addition answers whether its item is new to what the others before it
have left. -/
theorem getElem?_answers {k : Nat} (h : is[k]? = some i) :
    (answers s is)[k]? = some ((s.addAll (is.take k)).isNew i) := by
  induction is generalizing s k with
  | nil => cases h
  | cons j is ih =>
    cases k with
    | zero =>
      cases h
      rfl
    | succ k => exact ih h

/-- The additions go the way of a loop over all items that keeps the first of
each kind. -/
theorem loop_same : List.eraseDupsBy.loop Item.same is s.items.reverse = (s.addAll is).items := by
  induction is generalizing s with
  | nil => exact List.reverse_reverse _
  | cons i is ih =>
    have hany : s.items.reverse.any i.same = s.holds i := by
      rw [List.any_reverse, holds]
      refine congrArg s.items.any (funext fun j => ?_)
      rw [Item.same, Item.same, decide_eq_decide]
      exact eq_comm
    rw [List.eraseDupsBy.loop, hany, addAll_cons, ← ih]
    cases h : s.holds i with
    | true => rw [add_of_holds h]
    | false =>
      rw [add_of_not_holds (Bool.not_eq_true _ ▸ h), List.reverse_append]
      rfl

/-- A list without equal items is left as it is. -/
theorem addAll_of_nodup {n : Int} {l : List Item} (hl : (l.map (·.text)).Nodup) :
    addAll ⟨n, []⟩ l = ⟨n, l⟩ := by
  induction l using List.reverseRecOn with
  | nil => rfl
  | append_singleton l i ih =>
    rw [List.map_append, List.map_singleton, List.nodup_append] at hl
    obtain ⟨hl, -, hfresh⟩ := hl
    have hnew : ¬ State.holds ⟨n, l⟩ i := fun h =>
      hfresh _ (holds_iff.mp h) _ (List.mem_singleton.mpr rfl) rfl
    rw [addAll, List.foldl_append]
    show (addAll ⟨n, []⟩ l).add i = _
    rw [ih hl, add_of_not_holds hnew]

/-- Items stand in the order in which they came in first. -/
theorem items_addAll (hs : s.texts.Nodup) :
    (s.addAll is).items = (s.items ++ is).eraseDupsBy Item.same := by
  -- what the state has at first may as well have been added to an empty one
  have hstart : addAll ⟨s.number, []⟩ s.items = s := addAll_of_nodup hs
  have hall : s.addAll is = addAll ⟨s.number, []⟩ (s.items ++ is) := by
    rw [addAll, addAll, List.foldl_append]
    exact congrArg (List.foldl add · is) hstart.symm
  rw [hall, ← loop_same]
  rfl

/-! ## Sets of texts -/

theorem size_key (hs : s.texts.Nodup) : s.key.size = s.items.length := by
  have hperm : s.key.toList.Perm s.texts := by
    refine (List.perm_ext_iff_of_nodup (SortedSet.nodup_toList _) hs).mpr fun x => ?_
    exact SortedSet.mem_ofList
  rw [SortedSet.size, hperm.length_eq, texts, List.length_map]

theorem key_eq_iff_holds :
    s.key = t.key ↔ (∀ i ∈ s.items, t.holds i) ∧ ∀ i ∈ t.items, s.holds i := by
  simp only [key_eq_iff, holds_iff, iff_iff_implies_and_implies, forall_and, texts,
    List.forall_mem_map]

/-- What some additions to a state have answered and what they leave. -/
structure Added (s : State) (is : List Item) : Prop where
  /-- An addition answers that its item is new if none like it was there, which
  is so if none was there at first or has been added before. -/
  answer : ∀ (k : Nat) (i : Item), is[k]? = some i → ∃ answer, (answers s is)[k]? = some answer ∧
    (answer = true ↔ ∀ j ∈ (s.addAll (is.take k)).items, ¬ j.same i) ∧
    (answer = true ↔ ∀ j ∈ s.items ++ is.take k, ¬ j.same i)
  number : (s.addAll is).number = s.number
  /-- The items are the first ones of their kinds, in order. -/
  items : (s.addAll is).items = (s.items ++ is).eraseDupsBy Item.same
  distinct : (s.addAll is).items.Pairwise fun i j => ¬ i.same j
  size : (s.addAll is).items.length = (s.addAll is).key.size

theorem isNew_iff : s.isNew i ↔ ∀ j ∈ s.items, ¬ j.same i := by
  rw [isNew_iff_not_holds, Bool.not_eq_true, holds, List.any_eq_false]

theorem added (hs : s.texts.Nodup) (is : List Item) : s.Added is := by
  have hnodup : (s.addAll is).texts.Nodup := nodup_texts_addAll hs
  refine ⟨fun k i hi => ⟨_, getElem?_answers hi, isNew_iff, ?_⟩, number_addAll,
    items_addAll hs, ?_, (size_key hnodup).symm⟩
  · rw [isNew_iff_not_holds, holds_iff, mem_texts_addAll_iff]
    simp only [Item.same, decide_eq_true_eq, not_exists, not_and]
  · refine (List.pairwise_map.mp hnodup).imp fun hne h => hne ?_
    exact of_decide_eq_true h

/-- Which of two states without repeated items is asked does not matter, and
equality is passed on. -/
theorem same_equivalence :
    Equivalence fun p q : { s : State // s.texts.Nodup } => p.val.same q.val = true := by
  constructor
  · intro p
    exact (same_iff_key_eq p.property p.property).mpr rfl
  · intro p q h
    exact (same_iff_key_eq q.property p.property).mpr
      ((same_iff_key_eq p.property q.property).mp h).symm
  · intro p q r hpq hqr
    exact (same_iff_key_eq p.property r.property).mpr
      (((same_iff_key_eq p.property q.property).mp hpq).trans
        ((same_iff_key_eq q.property r.property).mp hqr))

/-- Two states that begin without equal items and have any items added.  They
are equal, whichever of them is asked, if their keys are, if each holds every
item of the other, and if the same texts were put into them: numbers and the
order of additions do not matter. -/
theorem ordered_set_of_additions (hs : s.texts.Nodup) (ht : t.texts.Nodup) (is js : List Item) :
    s.Added is ∧ t.Added js ∧
    ((s.addAll is).same (t.addAll js) ↔ (t.addAll js).same (s.addAll is)) ∧
    ((s.addAll is).same (t.addAll js) ↔ (s.addAll is).key = (t.addAll js).key) ∧
    ((s.addAll is).same (t.addAll js) ↔ (∀ i ∈ (s.addAll is).items, (t.addAll js).holds i) ∧
      ∀ i ∈ (t.addAll js).items, (s.addAll is).holds i) ∧
    ((s.addAll is).same (t.addAll js) ↔
      ∀ x, (∃ i ∈ s.items ++ is, i.text = x) ↔ ∃ j ∈ t.items ++ js, j.text = x) ∧
    Equivalence fun p q : { s : State // s.texts.Nodup } => p.val.same q.val = true := by
  have hs' : (s.addAll is).texts.Nodup := nodup_texts_addAll hs
  have ht' : (t.addAll js).texts.Nodup := nodup_texts_addAll ht
  have hkey : (s.addAll is).same (t.addAll js) ↔ (s.addAll is).key = (t.addAll js).key :=
    same_iff_key_eq hs' ht'
  refine ⟨added hs is, added ht js, ?_, hkey, hkey.trans key_eq_iff_holds, ?_, same_equivalence⟩
  · rw [hkey, same_iff_key_eq ht' hs', eq_comm]
  · simp only [hkey, key_eq_iff, mem_texts_addAll_iff]

/-- Two items added in either order, one of them twice. -/
theorem ordered_set_of_additions_swapped :
    (State.texts ⟨0, []⟩).Nodup ∧ (State.texts ⟨1, []⟩).Nodup ∧
      (addAll ⟨0, []⟩ [⟨"A", ["a"], 0⟩, ⟨"A", ["a"], 1⟩]).same
        (addAll ⟨1, []⟩ [⟨"A", ["a"], 1⟩, ⟨"A", ["a"], 0⟩, ⟨"A", ["a"], 5⟩]) := by
  have hempty : ∀ n, (State.texts ⟨n, []⟩).Nodup := fun _ => .nil
  obtain ⟨-, -, -, -, -, hsame, -⟩ := ordered_set_of_additions (hempty 0) (hempty 1)
    [⟨"A", ["a"], 0⟩, ⟨"A", ["a"], 1⟩] [⟨"A", ["a"], 1⟩, ⟨"A", ["a"], 0⟩, ⟨"A", ["a"], 5⟩]
  refine ⟨hempty 0, hempty 1, hsame.mpr fun x => ?_⟩
  have hbeyond : (Item.mk "A" ["a"] 5).text = (Item.mk "A" ["a"] 1).text := by decide
  simp only [List.nil_append, List.mem_cons, List.not_mem_nil, or_false, exists_eq_or_imp,
    exists_eq_left, hbeyond]
  rw [or_comm, or_self_left]

end State

end LRZero
