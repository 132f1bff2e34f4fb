import LRZero.Proofs.ItemClosure

/-!
# Equal items

Items are equal when they are written alike.  With plain symbols that is to
have the same result, the same body and the same cut; the dots may differ, one
counting from the end and one from the start, or both beyond the same end.

What an item is asked goes by the dot and not by the cut.  As long as the dot is
not negative that makes no difference: whether the item is complete, what comes
next and where the dot moves to are the same for all dots with one cut
(`isComplete_iff_cut`, `next_eq_ok`, `cut_advanced`), since beyond the end
nothing is left to read and no dot moves.  So equal items can stand for one
another (`Interchangeable`) wherever an item is looked up by its text.

Main statement: `equal_items_interchangeable`.
-/

namespace LRZero

namespace Item

variable {i j : Item}

/-- What is asked of an item does not tell these two apart: both are complete or
neither is, the same comes next, and both move to equal items or both refuse to
move. -/
structure Interchangeable (i j : Item) : Prop where
  isComplete : i.isComplete = j.isComplete
  next : ∃ x, i.next = .ok x ∧ j.next = .ok x
  advance : (∃ i' j', i.advance = .ok i' ∧ j.advance = .ok j' ∧ i'.same j') ∨
    (i.advance = .error .dotAtEnd ∧ j.advance = .error .dotAtEnd)

/-! ## Dots that are not negative -/

theorem isComplete_iff_cut (h : 0 ≤ i.dot) : i.isComplete ↔ i.cut = i.body.length := by
  rw [isComplete, decide_eq_true_iff, cut_of_nonneg h]
  omega

theorem next_eq_ok (h : 0 ≤ i.dot) : i.next = .ok i.body[i.cut]? := by
  rw [next_eq_ok_iff, next?, if_neg (Int.not_lt.mpr h), cut_of_nonneg h]
  refine ⟨fault?_eq_none_of_nonneg h, ?_⟩
  rcases Nat.le_total i.dot.toNat i.body.length with hle | hle
  · rw [Nat.min_eq_left hle]
  · rw [Nat.min_eq_right hle, List.getElem?_eq_none hle, List.getElem?_eq_none (Nat.le_refl _)]

theorem cut_advanced (h : 0 ≤ i.dot) (hmore : ¬ i.isComplete) : i.advanced.cut = i.cut + 1 := by
  have hdot := not_isComplete_iff.mp hmore
  have hadvanced : 0 ≤ i.advanced.dot := by
    show 0 ≤ i.dot + 1
    omega
  rw [cut_of_nonneg hadvanced, cut_of_nonneg h]
  show min (i.dot + 1).toNat i.body.length = min i.dot.toNat i.body.length + 1
  omega

/-- Of a dot that is not negative only the cut is seen. -/
theorem interchangeable_of_cut_eq (hi : 0 ≤ i.dot) (hj : 0 ≤ j.dot) (hresult : i.result = j.result)
    (hbody : i.body = j.body) (hcut : i.cut = j.cut) : i.Interchangeable j := by
  have hcomplete : i.isComplete ↔ j.isComplete := by
    rw [isComplete_iff_cut hi, isComplete_iff_cut hj, hbody, hcut]
  refine ⟨Bool.eq_iff_iff.mpr hcomplete, ⟨i.body[i.cut]?, next_eq_ok hi, ?_⟩, ?_⟩
  · rw [next_eq_ok hj, hbody, hcut]
  by_cases hdone : i.isComplete
  · exact .inr ⟨advance_of_isComplete hdone, advance_of_isComplete (hcomplete.mp hdone)⟩
  · have hmore : ¬ j.isComplete := fun h => hdone (hcomplete.mpr h)
    have hmoved : i.advanced.cut = j.advanced.cut := by
      rw [cut_advanced hi hdone, cut_advanced hj hmore, hcut]
    exact .inl ⟨_, _, advance_of_not_isComplete hdone, advance_of_not_isComplete hmore,
      decide_eq_true (text_eq_of_cut_eq hresult hbody hmoved)⟩

/-- Plain items with any dots are equal exactly if they have the same result and
the same body, cut at the same place.  Those with dots that are not negative are
then interchangeable. -/
theorem equal_items_interchangeable (hi : i.Plain) (hj : j.Plain) :
    (i.same j ↔ i.result = j.result ∧ i.body = j.body ∧ i.cut = j.cut) ∧
    (0 ≤ i.dot → 0 ≤ j.dot → i.same j → i.Interchangeable j) := by
  have hsame : i.same j ↔ i.result = j.result ∧ i.body = j.body ∧ i.cut = j.cut := by
    rw [same, decide_eq_true_iff]
    exact text_eq_iff hi.spaceless hj.spaceless hi.not_markInside
  refine ⟨hsame, fun hidot hjdot h => ?_⟩
  obtain ⟨hresult, hbody, hcut⟩ := hsame.mp h
  exact interchangeable_of_cut_eq hidot hjdot hresult hbody hcut

/-- A dot at the end and one far beyond it. -/
theorem equal_items_interchangeable_beyond :
    (Item.mk "A" ["a", "B"] 2).Plain ∧ (Item.mk "A" ["a", "B"] 100).Plain ∧
      (0 : Int) ≤ 2 ∧ (0 : Int) ≤ 100 ∧
      (Item.mk "A" ["a", "B"] 2).same ⟨"A", ["a", "B"], 100⟩ ∧
      (Item.mk "A" ["a", "B"] 2).Interchangeable ⟨"A", ["a", "B"], 100⟩ := by
  have hend : (Item.mk "A" ["a", "B"] 2).Plain := by decide
  have hbeyond : (Item.mk "A" ["a", "B"] 100).Plain := by decide
  obtain ⟨hsame, hinterchangeable⟩ := equal_items_interchangeable hend hbeyond
  have hequal := hsame.mpr ⟨rfl, rfl, rfl⟩
  exact ⟨hend, hbeyond, by decide, by decide, hequal, hinterchangeable (by decide) (by decide) hequal⟩

/-- A negative dot is told from its cut by a move. -/
example : (Item.mk "A" ["a"] (-1)).same ⟨"A", ["a"], 0⟩ ∧
    (Item.mk "A" ["a"] (-1)).advanced.same (advanced ⟨"A", ["a"], 0⟩) = false := by decide

end Item

end LRZero
