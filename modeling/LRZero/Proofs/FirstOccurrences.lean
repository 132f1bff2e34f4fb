import Mathlib.Data.List.Basic
import Mathlib.Data.List.Induction

/-!
# First occurrences

The automaton numbers, the tables list and the states hold things in the order
in which they come up for the first time.  Here are the facts about such lists:
what one more element does to the list of first occurrences, and that a list of
pairs whose first parts are distinct is a table of what belongs to each.
-/

namespace LRZero

section

variable {α : Type} [BEq α] [LawfulBEq α] {l : List α} {a : α}

theorem eraseDups_concat_of_mem (h : a ∈ l) : (l ++ [a]).eraseDups = l.eraseDups := by
  have hnone : [a].removeAll l = [] := by simp [List.removeAll, h]
  rw [List.eraseDups_append, hnone, List.eraseDups_nil, List.append_nil]

theorem eraseDups_concat_of_not_mem (h : a ∉ l) : (l ++ [a]).eraseDups = l.eraseDups ++ [a] := by
  have hall : [a].removeAll l = [a] := by simp [List.removeAll, h]
  rw [List.eraseDups_append, hall]
  rfl

theorem nodup_eraseDups (l : List α) : l.eraseDups.Nodup := by
  induction l using List.reverseRecOn with
  | nil => exact .nil
  | append_singleton l a ih =>
    by_cases h : a ∈ l
    · rw [eraseDups_concat_of_mem h]
      exact ih
    · rw [eraseDups_concat_of_not_mem h]
      refine List.nodup_append.mpr ⟨ih, List.nodup_cons.mpr ⟨List.not_mem_nil, .nil⟩, ?_⟩
      intro b hb c hc he
      rw [List.mem_singleton.mp hc] at he
      exact h (List.mem_eraseDups.mp (he ▸ hb))

end

/-! ## Pairs with distinct first parts -/

theorem mem_of_lookup {α β : Type} [DecidableEq α] {l : List (α × β)} {x : α} {b : β}
    (h : l.lookup x = some b) : (x, b) ∈ l := by
  obtain ⟨l₁, l₂, rfl, -⟩ := List.lookup_eq_some_iff.mp h
  exact List.mem_append_right _ List.mem_cons_self

theorem lookup_eq_some_of_mem {α β : Type} [DecidableEq α] {l : List (α × β)} {x : α} {b : β}
    (hl : (l.map (·.1)).Nodup) (h : (x, b) ∈ l) : l.lookup x = some b := by
  induction l with
  | nil => exact absurd h List.not_mem_nil
  | cons p l ih =>
    obtain ⟨hp, hl⟩ := List.nodup_cons.mp hl
    rcases List.mem_cons.mp h with rfl | h
    · rw [List.lookup_cons, beq_self_eq_true]
    · have hne : x ≠ p.1 := by
        rintro rfl
        exact hp (List.mem_map.mpr ⟨_, h, rfl⟩)
      rw [List.lookup_cons, beq_false_of_ne hne]
      exact ih hl h

theorem filterMap_lookup {α β : Type} [DecidableEq α] {l : List (α × β)}
    (hl : (l.map (·.1)).Nodup) : (l.map (·.1)).filterMap (fun x => l.lookup x) = l.map (·.2) := by
  rw [List.filterMap_map, ← List.filterMap_eq_map]
  exact List.filterMap_congr fun p hp => lookup_eq_some_of_mem hl hp

end LRZero
