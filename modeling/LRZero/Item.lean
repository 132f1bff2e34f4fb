import LRZero.Rule
import LRZero.Fault

/-!
# Items

An item is a rule with a dot in its body: what stands before the dot has
been read.  The dot is any whole number.  A negative one counts from the end
of the body, and where the body is cut there, a dot beyond either end is
taken to stand at that end.

Two items are the same when their texts are.  For symbols that are not empty
and hold neither a space nor the mark of the dot this means: same result,
same body, same cut.
-/

namespace LRZero

/-- A rule with a dot in its body. -/
structure Item where
  result : Symbol
  body : List Symbol
  dot : Int
deriving DecidableEq, Inhabited

namespace Item

/-- The item of a rule with the dot at a given place. -/
def ofRuleAt (r : Rule) (dot : Int) : Item := ⟨r.result, r.body, dot⟩

/-- The item of a rule with the dot before the body. -/
def ofRule (r : Rule) : Item := ofRuleAt r 0

/-- The place where the dot cuts the body. -/
def cut (i : Item) : Nat :=
  if i.dot < 0 then (i.body.length + i.dot).toNat else min i.dot.toNat i.body.length

/-- The part of the body before the dot. -/
def before (i : Item) : List Symbol := i.body.take i.cut

/-- The part of the body behind the dot. -/
def after (i : Item) : List Symbol := i.body.drop i.cut

/-- The item as it is written, with the dot in its place. -/
def text (i : Item) : String :=
  i.result ++ " : " ++ " ".intercalate i.before ++ " " ++ Symbol.dotMark ++ " " ++
    " ".intercalate i.after

/-- The item with its kind named. -/
def inspect (i : Item) : String := "Item(" ++ i.text ++ ")"

/-- Are the two items written alike? -/
def same (i j : Item) : Bool := i.text = j.text

/-- Does the dot stand behind the body? -/
def isComplete (i : Item) : Bool := decide ((i.body.length : Int) ≤ i.dot)

/-- The symbol right behind the dot, where there is one. -/
def next? (i : Item) : Option Symbol :=
  if i.dot < 0 then
    if i.body.length + i.dot < 0 then none else i.body[(i.body.length + i.dot).toNat]?
  else i.body[i.dot.toNat]?

/-- The non-terminal right behind the dot, where there is one. -/
def nonterminal? (i : Item) : Option Symbol := i.next?.filter (·.isNonterminal)

/-- The fault of an item whose dot counts back beyond the start of its body. -/
def fault? (i : Item) : Option Fault :=
  if i.body.length + i.dot < 0 then
    some (if isPosition i.dot then .dotBeforeBody else .noPosition)
  else none

/-- The symbol right behind the dot, nothing for a complete item. -/
def next (i : Item) : Except Fault (Option Symbol) :=
  match i.fault? with
  | some f => .error f
  | none => .ok i.next?

/-- The item with the dot one symbol further on. -/
def advanced (i : Item) : Item := { i with dot := i.dot + 1 }

/-- The item with the dot one symbol further on, unless it is complete. -/
def advance (i : Item) : Except Fault Item :=
  if i.isComplete then .error .dotAtEnd else .ok i.advanced

/-- With the dot inside the body the next symbol is read off the body. -/
theorem next?_ofRuleAt (r : Rule) (n : Nat) : (ofRuleAt r n).next? = r.body[n]? := by
  have h : ¬ (ofRuleAt r n).dot < 0 := by simp [ofRuleAt]
  rw [next?, if_neg h]
  simp [ofRuleAt]

end Item

/-- The items of a rule, one for each place of the dot. -/
def Rule.items (r : Rule) : List Item :=
  (List.range (r.body.length + 1)).map fun (n : Nat) => .ofRuleAt r n

/-- A rule is a fixed value: no part of it can be assigned. -/
def Rule.assign (_ : Rule) (part : String) : Except Fault Rule := .error (.fixedPart part)

end LRZero
