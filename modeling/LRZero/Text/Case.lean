import LRZero.Text.CaseTable

/-!
# Upper and lower case of a text

Case is a matter of whole texts: a character may become several, and a
capital sigma becomes a final sigma only at the end of a word.  `upper` and
`lower` follow the full mappings of Unicode 14 with that one rule of context.
-/

namespace LRZero.Text

/-- The upper case of one character. -/
def upperChar (c : Char) : List Char :=
  match shift? upperShifts c.toNat with
  | some n => [Char.ofNat n]
  | none =>
    match expansion? upperExpansions c.toNat with
    | some codes => codes.map Char.ofNat
    | none => [c]

/-- The lower case of one character that stands alone. -/
def lowerChar (c : Char) : List Char :=
  match shift? lowerShifts c.toNat with
  | some n => [Char.ofNat n]
  | none =>
    match expansion? lowerExpansions c.toNat with
    | some codes => codes.map Char.ofNat
    | none => [c]

/-- The upper case of a text. -/
def upper (s : String) : String := String.ofList (s.toList.flatMap upperChar)

/-! ## The final sigma -/

/-- Is the first character that is not looked through a cased one? -/
def meetsCased : List Char → Bool
  | [] => false
  | c :: rest =>
    if inRanges ignorableRanges c.toNat then meetsCased rest
    else inRanges casedRanges c.toNat

/-- The lower case of a capital sigma between the characters before it, the
nearest first, and those after it: final at the end of a word. -/
def lowerSigma (before after : List Char) : Char :=
  if meetsCased before && !meetsCased after then 'ς' else 'σ'

/-- The lower case of `rest`, standing after `before` (the nearest first). -/
def lowerAfter (before : List Char) : List Char → List Char
  | [] => []
  | c :: rest =>
    (if c = 'Σ' then [lowerSigma before rest] else lowerChar c) ++ lowerAfter (c :: before) rest

/-- The lower case of a text. -/
def lower (s : String) : String := String.ofList (lowerAfter [] s.toList)

end LRZero.Text
