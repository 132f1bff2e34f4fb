import Mathlib.Logic.Relation
import LRZero.Grammar

/-!
# Derivations

The sentential forms of a grammar, rewritten one non-terminal at a time, in
any order and at any place.  What is not spelled as a non-terminal is never
rewritten, also where a rule produces it.

`Reachable` collects the symbols that the rules lead to from the start
symbol; under rules that all produce non-terminals each of them occurs in a
sentential form (`Reachable.exists_derives`).
-/

namespace LRZero.Grammar

/-- One step: a non-terminal of the form gives way to the body of one of its rules. -/
inductive Produces (g : Grammar) : List Symbol → List Symbol → Prop
  | rewrite {r : Rule} (α β : List Symbol) : r ∈ g.rules → r.result.isNonterminal →
      Produces g (α ++ r.result :: β) (α ++ (r.body ++ β))

/-- Any number of steps. -/
abbrev Derives (g : Grammar) : List Symbol → List Symbol → Prop := Relation.ReflTransGen g.Produces

/-- The symbols that the rules lead to: the start symbol, and the
non-terminals in the bodies of the rules of such symbols. -/
inductive Reachable (g : Grammar) : Symbol → Prop
  | start : Reachable g g.start
  | body {r : Rule} {x : Symbol} : r ∈ g.rules → Reachable g r.result → x ∈ r.body →
      x.isNonterminal → Reachable g x

variable {g : Grammar}

theorem Produces.append_left {u v : List Symbol} (h : g.Produces u v) (γ : List Symbol) :
    g.Produces (γ ++ u) (γ ++ v) := by
  cases h with
  | rewrite α β hr hn =>
    rw [← List.append_assoc, ← List.append_assoc γ]
    exact .rewrite (γ ++ α) β hr hn

theorem Produces.append_right {u v : List Symbol} (h : g.Produces u v) (γ : List Symbol) :
    g.Produces (u ++ γ) (v ++ γ) := by
  cases h with
  | rewrite α β hr hn =>
    rw [List.append_assoc, List.append_assoc, List.append_assoc]
    exact .rewrite α (β ++ γ) hr hn

/-- A derivation goes through in any surroundings. -/
theorem Derives.between {u v : List Symbol} (h : g.Derives u v) (α β : List Symbol) :
    g.Derives (α ++ (u ++ β)) (α ++ (v ++ β)) := by
  induction h with
  | refl => exact .refl
  | tail _ hstep ih => exact ih.tail ((hstep.append_right β).append_left α)

/-- A symbol of a derived form derives in its place what it derives alone. -/
theorem Derives.trans_at {u v α β : List Symbol} {y : Symbol} (h : g.Derives u (α ++ y :: β))
    (hy : g.Derives [y] v) : g.Derives u (α ++ (v ++ β)) :=
  h.trans (hy.between α β)

/-- The body of a rule, at its place in a derived form. -/
theorem Derives.rewrite_at {u α β γ δ : List Symbol} {r : Rule} {x : Symbol}
    (h : g.Derives u (α ++ r.result :: β)) (hr : r ∈ g.rules) (hn : r.result.isNonterminal)
    (hbody : r.body = γ ++ x :: δ) : g.Derives u ((α ++ γ) ++ x :: (δ ++ β)) := by
  have hstep : g.Derives u (α ++ (r.body ++ β)) := h.tail (.rewrite α β hr hn)
  rw [hbody, List.append_assoc, List.cons_append, ← List.append_assoc] at hstep
  exact hstep

theorem Reachable.exists_derives (hres : ∀ r ∈ g.rules, r.result.isNonterminal) {x : Symbol}
    (h : g.Reachable x) : ∃ α β, g.Derives [g.start] (α ++ x :: β) := by
  induction h with
  | start => exact ⟨[], [], .refl⟩
  | body hr _ hx _ ih =>
    obtain ⟨α, β, hd⟩ := ih
    obtain ⟨γ, δ, hbody⟩ := List.append_of_mem hx
    exact ⟨α ++ γ, δ ++ β, hd.rewrite_at hr (hres _ hr) hbody⟩

/-- Sums of identifiers, as the rules of a left-recursive non-terminal. -/
def sums : Grammar where
  start := "EXPR"
  terminals := .ofList ["+", "id"]
  nonterminals := .ofList ["EXPR", "TERM"]
  rules := [⟨"EXPR", ["EXPR", "+", "TERM"]⟩, ⟨"EXPR", ["TERM"]⟩, ⟨"TERM", ["id"]⟩]

end LRZero.Grammar
