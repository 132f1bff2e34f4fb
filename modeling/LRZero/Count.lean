/-!
# Counting what is left

The searches of this library end because each step takes something away from
a finite stock.  The stock is counted with `List.countP`, and the one fact
needed is that a stricter test that fails at some member counts less.
-/

namespace LRZero

theorem countP_lt_countP {α : Type} {p q : α → Bool} :
    ∀ {l : List α}, (∀ a ∈ l, p a = true → q a = true) →
      ∀ {x : α}, x ∈ l → q x = true → p x = false → l.countP p < l.countP q
  | [], _, _, hx, _, _ => absurd hx List.not_mem_nil
  | a :: l, h, x, hx, hq, hp => by
    have hle : l.countP p ≤ l.countP q :=
      List.countP_mono_left fun b hb => h b (List.mem_cons_of_mem _ hb)
    simp only [List.countP_cons]
    rcases List.mem_cons.mp hx with rfl | hx
    · simp only [hp, hq]
      grind
    · have := countP_lt_countP (fun b hb => h b (List.mem_cons_of_mem _ hb)) hx hq hp
      by_cases ha : p a = true
      · simp [ha, h a List.mem_cons_self ha, this]
      · grind

end LRZero
