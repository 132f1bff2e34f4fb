import Mathlib.Data.List.Induction
import LRZero.Proofs.CanonicalCollection

/-!
# The states are the sets of valid items

What the automaton recognises, said without it.  A `Spine` of the grammar runs
from the start symbol to a non-terminal through bodies, and remembers what
stands before it in each of them; an item is `Valid` for a sequence of symbols
when a spine and what is before its dot make up the sequence.

For plain symbols the states are exactly the sets of valid items: along the
table the sequences that some item is valid for, and no others, lead to a
state, and it holds the items valid for the sequence (`walk_iff_valid`).  One
lemma serves the first state and all gotos: an item valid for a sequence is in
the closure of those valid items that a rule of the start symbol or a shift
brings along (`Valid.inClosure`).
-/

namespace LRZero

/-- The state that a sequence of symbols leads to, if no cell on the way is empty. -/
def Trace.walk? (t : Trace) (i : Nat) : List Symbol → Option Nat
  | [] => some i
  | x :: γ => (t.cell? i x).bind fun j => t.walk? j γ

theorem Trace.walk?_concat (t : Trace) (x : Symbol) :
    ∀ (γ : List Symbol) (i : Nat), t.walk? i (γ ++ [x]) = (t.walk? i γ).bind fun j => t.cell? j x
  | [], i => by
    show (t.cell? i x).bind some = t.cell? i x
    cases t.cell? i x with
    | none => rfl
    | some j => rfl
  | y :: γ, i => by
    show (t.cell? i y).bind (fun j => t.walk? j (γ ++ [x])) =
      ((t.cell? i y).bind fun j => t.walk? j γ).bind fun j => t.cell? j x
    cases t.cell? i y with
    | none => rfl
    | some j => exact walk?_concat t x γ j

namespace Grammar

/-- `Spine g x δ`: from the start symbol one comes to `x` through bodies of
rules, with `δ` standing before it. -/
inductive Spine (g : Grammar) : Symbol → List Symbol → Prop
  | start : Spine g g.start []
  | step {r : Rule} {x : Symbol} {α β δ : List Symbol} : Spine g r.result δ → r ∈ g.rules →
      r.body = α ++ x :: β → x.isNonterminal → Spine g x (δ ++ α)

/-- The item of a rule, with `α` before the dot, is valid for `δ ++ α` when a
spine leads to the result of the rule with `δ` before it. -/
def Valid (g : Grammar) (γ : List Symbol) (i : Item) : Prop :=
  ∃ (r : Rule) (α β δ : List Symbol), r ∈ g.rules ∧ r.body = α ++ β ∧
    i = .ofRuleAt r α.length ∧ g.Spine r.result δ ∧ γ = δ ++ α

variable {g : Grammar} {γ : List Symbol} {i : Item} {x : Symbol}

/-! ## Valid items -/

theorem next?_of_body {r : Rule} {α β : List Symbol} (h : r.body = α ++ β) :
    (Item.ofRuleAt r α.length).next? = β.head? := by
  rw [Item.next?_ofRuleAt, h, List.getElem?_append_right (Nat.le_refl _), Nat.sub_self,
    List.head?_eq_getElem?]

/-- Behind the dot of a valid item, a rule of the non-terminal is valid too. -/
theorem Valid.ofRule {r : Rule} (h : g.Valid γ i) (hx : i.nonterminal? = some x)
    (hr : r ∈ g.rulesFor x) : g.Valid γ (.ofRule r) := by
  obtain ⟨s, α, β, δ, hs, hbody, rfl, hspine, rfl⟩ := h
  obtain ⟨hnext, hn⟩ := Item.nonterminal?_eq_some.mp hx
  obtain ⟨hmem, rfl⟩ := mem_rulesFor.mp hr
  rw [next?_of_body hbody] at hnext
  obtain ⟨β, rfl⟩ := List.head?_eq_some_iff.mp hnext
  exact ⟨r, [], r.body, δ ++ α, hmem, rfl, rfl, hspine.step hs hbody hn, (List.append_nil _).symm⟩

theorem Valid.advanced (h : g.Valid γ i) (hx : i.next? = some x) :
    g.Valid (γ ++ [x]) i.advanced := by
  obtain ⟨r, α, β, δ, hr, hbody, rfl, hspine, rfl⟩ := h
  rw [next?_of_body hbody] at hx
  obtain ⟨β, rfl⟩ := List.head?_eq_some_iff.mp hx
  refine ⟨r, α ++ [x], β, δ, hr, ?_, ?_, hspine, List.append_assoc ..⟩
  · rw [hbody, List.append_assoc]
    rfl
  · rw [List.length_append, List.length_singleton]
    rfl

/-- An item with something before its dot comes from a shift. -/
theorem exists_shift {r : Rule} {α β δ : List Symbol} (hr : r ∈ g.rules) (hbody : r.body = α ++ β)
    (hspine : g.Spine r.result δ) (hα : α ≠ []) (h : γ ++ [x] = δ ++ α) :
    ∃ j, g.Valid γ j ∧ j.next? = some x ∧ j.advanced = .ofRuleAt r α.length := by
  obtain ⟨α, y, rfl⟩ := (List.eq_nil_or_concat' α).resolve_left hα
  rw [← List.append_assoc] at h
  obtain ⟨rfl, he⟩ := List.append_inj' h rfl
  cases he
  have hbody' : r.body = α ++ x :: β := by
    rw [hbody, List.append_assoc]
    rfl
  refine ⟨.ofRuleAt r α.length, ⟨r, α, x :: β, δ, hr, hbody', rfl, hspine, rfl⟩, ?_, ?_⟩
  · exact next?_of_body hbody'
  · rw [List.length_append, List.length_singleton]
    rfl

theorem Spine.exists_shift {δ : List Symbol} {y : Symbol} (h : g.Spine y δ) (hδ : γ ++ [x] = δ) :
    ∃ j, g.Valid γ j ∧ j.next? = some x := by
  induction h with
  | start => exact absurd hδ (List.append_ne_nil_of_right_ne_nil _ (List.cons_ne_nil _ _))
  | @step r y α β δ hspine hr hbody _ ih =>
    cases α with
    | nil =>
      rw [List.append_nil] at hδ
      exact ih hδ
    | cons z α =>
      obtain ⟨j, hj, hnext, -⟩ := Grammar.exists_shift hr hbody hspine (List.cons_ne_nil z α) hδ
      exact ⟨j, hj, hnext⟩

/-- A sequence that an item is valid for is left at each step by a valid item. -/
theorem Valid.exists_shift (h : g.Valid (γ ++ [x]) i) : ∃ j, g.Valid γ j ∧ j.next? = some x := by
  obtain ⟨r, α, β, δ, hr, hbody, -, hspine, hγ⟩ := h
  cases α with
  | nil =>
    rw [List.append_nil] at hγ
    exact hspine.exists_shift hγ
  | cons z α =>
    obtain ⟨j, hj, hnext, -⟩ := Grammar.exists_shift hr hbody hspine (List.cons_ne_nil z α) hγ
    exact ⟨j, hj, hnext⟩

/-! ## Valid items and closures -/

theorem valid_of_inClosure {kernel : List Item} (hk : ∀ i ∈ kernel, g.Valid γ i)
    (h : g.InClosure kernel i) : g.Valid γ i := by
  induction h with
  | kernel hi => exact hk _ hi
  | rule _ hx hr ih => exact ih.ofRule hx hr

section

variable {kernel : List Item} (hstart : γ = [] → ∀ r ∈ g.rulesFor g.start, .ofRule r ∈ kernel)
  (hshift : ∀ i, g.Valid γ i → 0 < i.dot → i ∈ kernel)
include hstart hshift

theorem Spine.inClosure {δ : List Symbol} (h : g.Spine x δ) (hδ : δ = γ) :
    ∀ r ∈ g.rulesFor x, g.InClosure kernel (.ofRule r) := by
  induction h with
  | start => exact fun r hr => .kernel (hstart hδ.symm r hr)
  | @step s y α β δ hspine hs hbody hy ih =>
    intro r hr
    have hvalid : g.Valid γ (.ofRuleAt s α.length) :=
      ⟨s, α, y :: β, δ, hs, hbody, rfl, hspine, hδ.symm⟩
    have hitem : g.InClosure kernel (.ofRuleAt s α.length) := by
      cases α with
      | nil => exact ih ((List.append_nil δ).symm.trans hδ) s (mem_rulesFor.mpr ⟨hs, rfl⟩)
      | cons z α => exact .kernel (hshift _ hvalid (Int.natCast_pos.mpr (Nat.succ_pos _)))
    exact .rule hitem (Item.nonterminal?_eq_some.mpr ⟨next?_of_body hbody, hy⟩) hr

/-- Valid items are in the closure of what the start symbol and shifts bring. -/
theorem Valid.inClosure (h : g.Valid γ i) : g.InClosure kernel i := by
  obtain ⟨r, α, β, δ, hr, hbody, rfl, hspine, hγ⟩ := h
  cases α with
  | nil =>
    have hδ : δ = γ := (List.append_nil δ).symm.trans hγ.symm
    exact hspine.inClosure hstart hshift hδ r (mem_rulesFor.mpr ⟨hr, rfl⟩)
  | cons z α =>
    refine .kernel (hshift _ ?_ (Int.natCast_pos.mpr (Nat.succ_pos _)))
    exact ⟨r, z :: α, β, δ, hr, hbody, rfl, hspine, hγ⟩

end

/-! ## The states -/

theorem Valid.proper (hg : g.Plain) (h : g.Valid γ i) : i.Proper := by
  obtain ⟨r, α, β, δ, hr, hbody, rfl, -, -⟩ := h
  refine Item.proper_ofRuleAt (hg.2 r hr) ?_
  rw [hbody, List.length_append]
  exact Nat.le_add_right _ _

theorem mem_startState (hg : g.Plain) : i ∈ g.startState.items ↔ g.Valid [] i := by
  rw [startState, mem_closure hg.2 (proper_of_mem_itemsFor hg.2)]
  constructor
  · refine valid_of_inClosure fun j hj => ?_
    obtain ⟨r, hr, hresult, rfl⟩ := mem_itemsFor.mp hj
    exact ⟨r, [], r.body, [], hr, rfl, rfl, hresult ▸ .start, rfl⟩
  · refine Valid.inClosure (fun _ r hr => List.mem_map.mpr ⟨r, hr, rfl⟩) fun j hj hdot => ?_
    obtain ⟨r, α, β, δ, -, -, rfl, -, hγ⟩ := hj
    obtain ⟨-, rfl⟩ := List.append_eq_nil_iff.mp hγ.symm
    exact absurd hdot (Int.lt_irrefl 0)

/-- The goto of the items valid for a sequence holds those valid for the
sequence with one more symbol. -/
theorem mem_goto_iff_valid (hg : g.Plain) {s : State} (hs : ∀ i, i ∈ s.items ↔ g.Valid γ i)
    {n : Int} : i ∈ (g.goto s x n).items ↔ g.Valid (γ ++ [x]) i := by
  have hproper : ∀ j ∈ s.items, j.Proper := fun j hj => ((hs j).mp hj).proper hg
  rw [mem_goto hg.2 hproper]
  constructor
  · refine valid_of_inClosure fun j hj => ?_
    obtain ⟨k, hk, hx, rfl⟩ := (mem_shifted hproper).mp hj
    exact ((hs k).mp hk).advanced hx
  · refine Valid.inClosure (fun h => ?_) fun j hj hdot => ?_
    · exact absurd h (List.append_ne_nil_of_right_ne_nil _ (List.cons_ne_nil _ _))
    · obtain ⟨r, α, β, δ, hr, hbody, rfl, hspine, hγ⟩ := hj
      have hα : α ≠ [] := by
        rintro rfl
        exact absurd hdot (Int.lt_irrefl 0)
      obtain ⟨k, hk, hx, hadvanced⟩ := Grammar.exists_shift hr hbody hspine hα hγ
      exact (mem_shifted hproper).mpr ⟨k, (hs k).mpr hk, hx, hadvanced.symm⟩

theorem mem_of_walk? (hg : g.Plain) (γ : List Symbol) :
    ∀ q, g.collection.trace.walk? 0 γ = some q →
      ∃ s, g.collection.states[q]? = some s ∧ ∀ i, i ∈ s.items ↔ g.Valid γ i := by
  obtain ⟨_, hsearched, -, -⟩ := searched_collection g
  induction γ using List.reverseRecOn with
  | nil =>
    intro q hq
    cases hq
    exact ⟨_, hsearched.grown.start, fun i => mem_startState hg⟩
  | append_singleton γ x ih =>
    intro q hq
    rw [Trace.walk?_concat] at hq
    obtain ⟨p, hp, hq⟩ := Option.bind_eq_some_iff.mp hq
    obtain ⟨s, hs, hitems⟩ := ih p hp
    obtain ⟨t, ht, hgoto⟩ := exists_goto_of_cell? hg.2 hs hq
    exact ⟨t, ht, fun i => (hgoto i).trans (mem_goto_iff_valid hg hitems)⟩

theorem exists_walk? (hg : g.Plain) (γ : List Symbol) :
    (∃ i, g.Valid γ i) → ∃ q, g.collection.trace.walk? 0 γ = some q := by
  induction γ using List.reverseRecOn with
  | nil => exact fun _ => ⟨0, rfl⟩
  | append_singleton γ x ih =>
    rintro ⟨i, hi⟩
    obtain ⟨j, hj, hx⟩ := hi.exists_shift
    obtain ⟨p, hp⟩ := ih ⟨j, hj⟩
    obtain ⟨s, hs, hitems⟩ := mem_of_walk? hg γ p hp
    obtain ⟨q, hq⟩ := (exists_cell?_iff hs).mpr ⟨j, (hitems j).mpr hj, hx⟩
    refine ⟨q, ?_⟩
    rw [Trace.walk?_concat, hp]
    exact hq

theorem exists_valid_of_walk? (hg : g.Plain) {q : Nat}
    (h : g.collection.trace.walk? 0 (γ ++ [x]) = some q) : ∃ i, g.Valid (γ ++ [x]) i := by
  rw [Trace.walk?_concat] at h
  obtain ⟨p, hp, hq⟩ := Option.bind_eq_some_iff.mp h
  obtain ⟨s, hs, hitems⟩ := mem_of_walk? hg γ p hp
  obtain ⟨j, hj, hx⟩ := (exists_cell?_iff hs).mp ⟨q, hq⟩
  exact ⟨j.advanced, ((hitems j).mp hj).advanced hx⟩

/-- The automaton of a grammar of plain symbols.  A sequence of symbols leads
from state 0 to a state exactly if some item is valid for it, and the state
holds exactly the items valid for the sequence. -/
theorem walk_iff_valid (g : Grammar) (hg : g.Plain) (γ : List Symbol) :
    (γ ≠ [] → ((∃ q, g.collection.trace.walk? 0 γ = some q) ↔ ∃ i, g.Valid γ i)) ∧
      ∀ q, g.collection.trace.walk? 0 γ = some q →
        ∃ s, g.collection.states[q]? = some s ∧ ∀ i, i ∈ s.items ↔ g.Valid γ i := by
  refine ⟨fun hγ => ⟨?_, exists_walk? hg γ⟩, mem_of_walk? hg γ⟩
  rintro ⟨q, hq⟩
  obtain ⟨γ, x, rfl⟩ := (List.eq_nil_or_concat' γ).resolve_left hγ
  exact exists_valid_of_walk? hg hq

/-- Lists of items, with an empty body for the end of a list. -/
def lists : Grammar where
  start := "LIST"
  terminals := .ofList ["item"]
  nonterminals := .ofList ["LIST"]
  rules := [⟨"LIST", []⟩, ⟨"LIST", ["item", "LIST"]⟩]

/-- Behind an item of a list the list may end. -/
theorem walk_iff_valid_lists :
    lists.Plain ∧ ["item"] ≠ [] ∧
      ∃ q s, lists.collection.trace.walk? 0 ["item"] = some q ∧
        lists.collection.states[q]? = some s ∧ Item.ofRule ⟨"LIST", []⟩ ∈ s.items := by
  have hplain : lists.Plain := by decide
  have hspine : lists.Spine "LIST" ["item"] :=
    @Spine.step lists ⟨"LIST", ["item", "LIST"]⟩ "LIST" ["item"] [] [] .start (by decide) rfl
      (by decide)
  have hvalid : lists.Valid ["item"] (Item.ofRule ⟨"LIST", []⟩) :=
    ⟨⟨"LIST", []⟩, [], [], ["item"], by decide, rfl, rfl, hspine, rfl⟩
  obtain ⟨hwalk, hitems⟩ := walk_iff_valid lists hplain ["item"]
  obtain ⟨q, hq⟩ := (hwalk (by decide)).mpr ⟨_, hvalid⟩
  obtain ⟨s, hs, hmem⟩ := hitems q hq
  exact ⟨hplain, by decide, q, s, hq, hs, (hmem _).mpr hvalid⟩

end Grammar

end LRZero
