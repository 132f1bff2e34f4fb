import LRZero.Text.Lines

/-!
# White space and words

White space is that of Unicode together with the four separators of ASCII;
all line ends belong to it.  A text is cut into words at white space, or
freed of the white space around it.
-/

namespace LRZero.Text

/-- The characters that separate words: the line ends, and the spaces within
a line. -/
def isBlank (c : Char) : Bool :=
  isLineEnd c || c = ' ' || c = '\t' || c = '\x1f' || c = '\u00a0' || c = '\u1680' ||
  ('\u2000' ≤ c && c ≤ '\u200a') || c = '\u202f' || c = '\u205f' || c = '\u3000'

theorem isBlank_of_isLineEnd {c : Char} (h : isLineEnd c = true) : isBlank c = true := by
  simp [isBlank, h]

/-! ## Words -/

/-- The words of a text that follows `word`, the characters of the word
begun, the last one first. -/
def wordsFrom (word : List Char) : List Char → List (List Char)
  | [] => if word = [] then [] else [word.reverse]
  | c :: rest =>
    if isBlank c then
      if word = [] then wordsFrom [] rest else word.reverse :: wordsFrom [] rest
    else wordsFrom (c :: word) rest

/-- The maximal runs of characters that are not blank. -/
def words (s : String) : List String := (wordsFrom [] s.toList).map String.ofList

/-- The text without the white space around it. -/
def strip (s : String) : String :=
  String.ofList ((s.toList.dropWhile isBlank).reverse.dropWhile isBlank).reverse

end LRZero.Text
