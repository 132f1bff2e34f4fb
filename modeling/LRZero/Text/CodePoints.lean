/-!
# Look-up by code point

Properties of characters are kept as short tables over runs of code points.
All tables are in increasing order, and a look-up stops at the first entry
beyond the code point it looks for, so that for the letters of ASCII it is
done after one comparison.
-/

namespace LRZero.Text

/-- Every `step`-th code point from `first` to `last` moves by `distance`. -/
structure Shift where
  first : Nat
  last : Nat
  step : Nat
  distance : Int

/-- The code point after the shift, where the shift has the point. -/
def Shift.move? (s : Shift) (n : Nat) : Option Nat :=
  if s.first ≤ n ∧ n ≤ s.last ∧ (n - s.first) % s.step = 0 then
    some (n + s.distance).toNat
  else none

/-- The code point after the shift of a table that has it. -/
def shift? : List Shift → Nat → Option Nat
  | [], _ => none
  | s :: rest, n => if n < s.first then none else (s.move? n).or (shift? rest n)

/-- The characters a code point becomes, where it is in a table of expansions. -/
def expansion? : List (Nat × List Nat) → Nat → Option (List Nat)
  | [], _ => none
  | (code, codes) :: rest, n =>
    if n < code then none else if n = code then some codes else expansion? rest n

/-- Is the code point in one of the ranges? -/
def inRanges : List (Nat × Nat) → Nat → Bool
  | [], _ => false
  | (first, last) :: rest, n =>
    if n < first then false else n ≤ last || inRanges rest n

end LRZero.Text
