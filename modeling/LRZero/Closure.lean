import LRZero.Count
import LRZero.Grammar
import LRZero.State
import LRZero.Event

/-!
# Closure and goto

The closure of a list of items is found in one sweep over the list while it
grows.  When the sweep meets an item with a non-terminal behind the dot for
the first time, the items of all rules of that non-terminal are appended,
those left out that are there already.

The sweep ends since every non-terminal with rules is expanded once: either
fewer rules are left to take in, or as many and fewer items to visit.

Items whose dot counts back beyond their body have no next symbol.  `closure`
and `goto` pass over them; `closure?` and `goto?` report the first one met.
-/

namespace LRZero

/-- The items among some candidates that are written like none in `seen` and
like no candidate before them. -/
def Item.fresh (seen : List String) : List Item → List Item
  | [] => []
  | i :: rest =>
    if i.text ∈ seen then fresh seen rest else i :: fresh (i.text :: seen) rest

/-- A list of items with the non-terminals whose rules have been taken in, in
order. -/
structure Expansion where
  items : List Item
  expanded : List Symbol

namespace Grammar

/-- The items of the rules of a non-terminal, with the dot before the body. -/
def itemsFor (g : Grammar) (x : Symbol) : List Item := (g.rulesFor x).map Item.ofRule

/-- How many rules have a result that is not expanded yet. -/
def unexpanded (g : Grammar) (expanded : List Symbol) : Nat :=
  g.rules.countP fun r => decide (r.result ∉ expanded)

theorem unexpanded_le (g : Grammar) (expanded : List Symbol) (x : Symbol) :
    g.unexpanded (expanded ++ [x]) ≤ g.unexpanded expanded :=
  List.countP_mono_left fun r _ => by simp only [List.mem_append]; grind

theorem unexpanded_lt {g : Grammar} {expanded : List Symbol} {x : Symbol}
    (hx : x ∉ expanded) (hr : g.rulesFor x ≠ []) :
    g.unexpanded (expanded ++ [x]) < g.unexpanded expanded := by
  obtain ⟨r, hr⟩ := List.exists_mem_of_ne_nil _ hr
  obtain ⟨hmem, hres⟩ := List.mem_filter.mp hr
  refine countP_lt_countP (fun r _ => ?_) hmem ?_ ?_
  · simp only [List.mem_append]; grind
  · simpa using of_decide_eq_true hres ▸ hx
  · simp [of_decide_eq_true hres]

/-- The items that expanding a non-terminal adds to a list. -/
def newItems (g : Grammar) (items : List Item) (x : Symbol) : List Item :=
  Item.fresh (items.map (·.text)) (g.itemsFor x)

theorem newItems_eq_nil {g : Grammar} {x : Symbol} (h : g.rulesFor x = []) (items : List Item) :
    g.newItems items x = [] := by
  simp [newItems, itemsFor, h, Item.fresh]

/-- The sweep over the items `pending`, the last ones of `items`, when the
rules of `expanded` have been taken in. -/
def sweep (g : Grammar) (pending items : List Item) (expanded : List Symbol) : Expansion :=
  match pending with
  | [] => ⟨items, expanded⟩
  | i :: rest =>
    match i.nonterminal? with
    | none => sweep g rest items expanded
    | some x =>
      if x ∈ expanded then sweep g rest items expanded
      else
        sweep g (rest ++ g.newItems items x) (items ++ g.newItems items x) (expanded ++ [x])
termination_by (g.unexpanded expanded, pending.length)
decreasing_by
  · exact Prod.Lex.right _ (by simp)
  · exact Prod.Lex.right _ (by simp)
  · by_cases hr : g.rulesFor x = []
    · rcases Nat.lt_or_eq_of_le (g.unexpanded_le expanded x) with h | h
      · exact Prod.Lex.left _ _ h
      · rw [newItems_eq_nil hr, h]
        exact Prod.Lex.right _ (by simp)
    · exact Prod.Lex.left _ _ (unexpanded_lt (by assumption) hr)

/-- The items with all that their closure adds to them. -/
def expansion (g : Grammar) (items : List Item) : Expansion := g.sweep items items []

/-- The state with all items that its closure adds. -/
def closure (g : Grammar) (s : State) : State := { s with items := (g.expansion s.items).items }

/-- What the closure of a state logs. -/
def closureLog (g : Grammar) (s : State) : List Event :=
  (g.expansion s.items).expanded.map .expanding

/-- The items of a state that have a symbol behind the dot, the dot moved over it. -/
def shifted (s : State) (x : Symbol) : List Item :=
  Item.fresh [] ((s.items.filter fun i => i.next? = some x).map (·.advanced))

/-- The state that a symbol leads to, before its closure. -/
def kernel (s : State) (x : Symbol) (number : Int) : State := ⟨number, shifted s x⟩

/-- The state that a symbol leads to. -/
def goto (g : Grammar) (s : State) (x : Symbol) (number : Int) : State :=
  g.closure (kernel s x number)

/-! ## States that may hold faulty items -/

/-- What has been logged when a sweep meets the first item without a next
symbol: the non-terminals of the items before it. -/
def faultLog (s : State) : List Event :=
  (((s.items.takeWhile fun i => i.fault?.isNone).filterMap (·.nonterminal?)).eraseDups).map .expanding

/-- The closure of a state, or the fault of its first faulty item, with the log. -/
def closure? (g : Grammar) (s : State) : Except Fault State × List Event :=
  match s.fault? with
  | some f => (.error f, faultLog s)
  | none => (.ok (g.closure s), g.closureLog s)

/-- The fault of moving the dot of an item over `x`, or over nothing: the dot
of a complete item cannot be moved. -/
def shiftFault? (x : Option Symbol) (i : Item) : Option Fault :=
  i.fault?.or (if x = none ∧ i.isComplete then some .dotAtEnd else none)

/-- The state that a symbol leads to, or the fault of the first item with one,
with the log. -/
def goto? (g : Grammar) (s : State) (x : Option Symbol) (number : Int) :
    Except Fault State × List Event :=
  match s.items.findSome? (shiftFault? x), x with
  | some f, _ => (.error f, [])
  | none, some x => (.ok (g.goto s x number), g.closureLog (kernel s x number))
  | none, none => (.ok ⟨number, []⟩, [])

end Grammar

end LRZero
