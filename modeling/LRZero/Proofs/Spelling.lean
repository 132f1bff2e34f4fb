import Mathlib.Data.List.Basic
import LRZero.Symbol

/-!
# Spelling goes by the characters

Whether a symbol is a non-terminal is asked of the whole text, whose case is
written with several characters for one in places, and with a sigma that
depends on what is around it.  Still the characters decide one by one.  No
character vanishes when the case of a text is changed, so a text that comes out
as it was has each character replaced by just one, and nothing can have moved:
each stands where it stood and is its own upper or lower case
(`Text.upper_eq_self_iff`, `Text.lower_eq_self_iff`).  A capital sigma never
stays one, whichever of its two lower cases its place asks for.

So the order of the characters and how often each occurs are of no account.
Main statement: `isNonterminal_by_characters`.
-/

namespace LRZero

namespace Text

/-! ## The case of one character -/

theorem ne_nil_of_expansion? {table : List (Nat × List Nat)} (htable : ∀ e ∈ table, e.2 ≠ [])
    {n : Nat} {codes : List Nat} (h : expansion? table n = some codes) : codes ≠ [] := by
  induction table with
  | nil => exact absurd h nofun
  | cons e rest ih =>
    obtain ⟨code, es⟩ := e
    rw [expansion?] at h
    split at h
    · exact absurd h nofun
    split at h
    · rw [← Option.some.inj h]
      exact htable (code, es) List.mem_cons_self
    · exact ih (fun e he => htable e (List.mem_cons_of_mem _ he)) h

/-- What a table of shifts and one of expansions put in the place of a character. -/
def replaced (shifts : List Shift) (expansions : List (Nat × List Nat)) (c : Char) : List Char :=
  match shift? shifts c.toNat with
  | some n => [Char.ofNat n]
  | none =>
    match expansion? expansions c.toNat with
    | some codes => codes.map Char.ofNat
    | none => [c]

theorem upperChar_eq (c : Char) : upperChar c = replaced upperShifts upperExpansions c := rfl

theorem lowerChar_eq (c : Char) : lowerChar c = replaced lowerShifts lowerExpansions c := rfl

theorem replaced_ne_nil (shifts : List Shift) {expansions : List (Nat × List Nat)}
    (htable : ∀ e ∈ expansions, e.2 ≠ []) (c : Char) : replaced shifts expansions c ≠ [] := by
  rw [replaced]
  split
  · exact List.cons_ne_nil _ _
  split
  · next codes hcodes =>
    intro hnil
    exact ne_nil_of_expansion? htable hcodes (List.map_eq_nil_iff.mp hnil)
  · exact List.cons_ne_nil _ _

theorem upperChar_ne_nil (c : Char) : upperChar c ≠ [] := by
  rw [upperChar_eq]
  exact replaced_ne_nil _ (by decide) c

theorem lowerChar_ne_nil (c : Char) : lowerChar c ≠ [] := by
  rw [lowerChar_eq]
  exact replaced_ne_nil _ (by decide) c

/-- The lower case of a character between the characters before it, the nearest
first, and those after it. -/
def lowerBetween (before after : List Char) (c : Char) : List Char :=
  if c = 'Σ' then [lowerSigma before after] else lowerChar c

theorem lowerAfter_cons (before rest : List Char) (c : Char) :
    lowerAfter before (c :: rest) = lowerBetween before rest c ++ lowerAfter (c :: before) rest :=
  rfl

theorem lowerBetween_ne_nil (before after : List Char) (c : Char) :
    lowerBetween before after c ≠ [] := by
  rw [lowerBetween]
  split
  · exact List.cons_ne_nil _ _
  · exact lowerChar_ne_nil c

/-- Where a character stands decides which sigma it becomes, not whether it
changes. -/
theorem lowerBetween_eq_iff {before after : List Char} {c : Char} :
    lowerBetween before after c = [c] ↔ lowerChar c = [c] := by
  by_cases hc : c = 'Σ'
  · subst hc
    have hsmall : lowerSigma before after ≠ 'Σ' := by
      rw [lowerSigma]
      split <;> decide
    have hchanged : lowerChar 'Σ' ≠ ['Σ'] := by decide
    rw [lowerBetween, if_pos rfl]
    exact iff_of_false (fun h => hsmall (List.singleton_inj.mp h)) hchanged
  · rw [lowerBetween, if_neg hc]

/-! ## Texts that stay as they are -/

/-- A piece put in the place of a character.  When neither it nor what is put in
the place of the rest is shorter, the text stays only if both stay. -/
theorem append_eq_cons_iff_of_length_le {piece rest' rest : List Char} {c : Char}
    (hpiece : piece ≠ []) (hrest : rest.length ≤ rest'.length) :
    piece ++ rest' = c :: rest ↔ piece = [c] ∧ rest' = rest := by
  constructor
  · intro h
    have hlength : piece.length + rest'.length = rest.length + 1 := by
      rw [← List.length_append, h, List.length_cons]
    have hpos : 0 < piece.length := List.length_pos_iff.mpr hpiece
    have hone : piece.length = [c].length := by
      rw [List.length_singleton]
      omega
    exact List.append_inj h hone
  · rintro ⟨rfl, rfl⟩
    rfl

theorem length_le_flatMap_upperChar (l : List Char) : l.length ≤ (l.flatMap upperChar).length := by
  induction l with
  | nil => exact Nat.zero_le _
  | cons c rest ih =>
    have hpos := List.length_pos_iff.mpr (upperChar_ne_nil c)
    rw [List.flatMap_cons, List.length_append, List.length_cons]
    omega

theorem flatMap_upperChar_eq_iff (l : List Char) :
    l.flatMap upperChar = l ↔ ∀ c ∈ l, upperChar c = [c] := by
  induction l with
  | nil => simp
  | cons c rest ih =>
    rw [List.flatMap_cons, append_eq_cons_iff_of_length_le (upperChar_ne_nil c)
      (length_le_flatMap_upperChar rest), ih, List.forall_mem_cons]

theorem length_le_lowerAfter (before l : List Char) : l.length ≤ (lowerAfter before l).length := by
  induction l generalizing before with
  | nil => exact Nat.zero_le _
  | cons c rest ih =>
    have hpos := List.length_pos_iff.mpr (lowerBetween_ne_nil before rest c)
    have hrest := ih (c :: before)
    rw [lowerAfter_cons, List.length_append, List.length_cons]
    omega

theorem lowerAfter_eq_iff (before l : List Char) :
    lowerAfter before l = l ↔ ∀ c ∈ l, lowerChar c = [c] := by
  induction l generalizing before with
  | nil => simp [lowerAfter]
  | cons c rest ih =>
    rw [lowerAfter_cons, append_eq_cons_iff_of_length_le (lowerBetween_ne_nil before rest c)
      (length_le_lowerAfter (c :: before) rest), lowerBetween_eq_iff, ih, List.forall_mem_cons]

theorem ofList_eq_iff {l : List Char} {s : String} : String.ofList l = s ↔ l = s.toList := by
  rw [← String.toList_inj, String.toList_ofList]

theorem upper_singleton_iff {c : Char} :
    upper (String.singleton c) = String.singleton c ↔ upperChar c = [c] := by
  rw [upper, ofList_eq_iff, flatMap_upperChar_eq_iff, String.toList_singleton,
    List.forall_mem_singleton]

theorem lower_singleton_iff {c : Char} :
    lower (String.singleton c) = String.singleton c ↔ lowerChar c = [c] := by
  rw [lower, ofList_eq_iff, lowerAfter_eq_iff, String.toList_singleton, List.forall_mem_singleton]

/-- A text is its own upper case exactly if each of its characters, alone, is. -/
theorem upper_eq_self_iff {s : String} :
    upper s = s ↔ ∀ c ∈ s.toList, upper (String.singleton c) = String.singleton c := by
  simp only [upper_singleton_iff]
  rw [upper, ofList_eq_iff, flatMap_upperChar_eq_iff]

example : upper "straße" = "STRASSE" := by decide

/-- A text is its own lower case exactly if each of its characters, alone, is. -/
theorem lower_eq_self_iff {s : String} :
    lower s = s ↔ ∀ c ∈ s.toList, lower (String.singleton c) = String.singleton c := by
  simp only [lower_singleton_iff]
  rw [lower, ofList_eq_iff, lowerAfter_eq_iff]

example : lower "ΟΔΟΣ ΟΔΟΣΣ" = "οδος οδοσς" := by decide

end Text

namespace Symbol

open Text (upper lower)

variable {s t : Symbol}

/-- No character of a non-terminal has another upper case, and at least one has
another lower case. -/
theorem isNonterminal_iff : s.isNonterminal ↔
    (∀ c ∈ s.toList, upper (String.singleton c) = String.singleton c) ∧
      ∃ c ∈ s.toList, lower (String.singleton c) ≠ String.singleton c := by
  have hempty : lower s ≠ s → s ≠ "" := by
    rintro hlower rfl
    exact hlower rfl
  have hcase : s.isNonterminal ↔ upper s = s ∧ lower s ≠ s := by
    simp only [isNonterminal, Bool.and_eq_true, decide_eq_true_eq, and_assoc]
    exact ⟨And.right, fun h => ⟨hempty h.2, h⟩⟩
  rw [hcase, Text.upper_eq_self_iff, Ne, Text.lower_eq_self_iff]
  simp only [not_forall, exists_prop, ne_eq]

/-- Symbols with the same characters are both non-terminals or neither. -/
theorem isNonterminal_congr (h : ∀ c, c ∈ s.toList ↔ c ∈ t.toList) :
    s.isNonterminal = t.isNonterminal := by
  rw [Bool.eq_iff_iff, isNonterminal_iff, isNonterminal_iff]
  simp only [h]

theorem isNonterminal_append (hs : s.isNonterminal) (ht : t.isNonterminal) :
    isNonterminal (s ++ t) := by
  obtain ⟨hsupper, c, hc, hlower⟩ := isNonterminal_iff.mp hs
  obtain ⟨htupper, -⟩ := isNonterminal_iff.mp ht
  rw [isNonterminal_iff, String.toList_append]
  refine ⟨?_, c, List.mem_append_left _ hc, hlower⟩
  intro d hd
  rcases List.mem_append.mp hd with hd | hd
  · exact hsupper d hd
  · exact htupper d hd

end Symbol

/-- The characters of a symbol, each alone, say whether it is a non-terminal.
Put together from two, it is one or not by which characters are in either of
them, in whatever order, and it is one if both are. -/
theorem isNonterminal_by_characters (s t : Symbol) :
    (s.isNonterminal ↔
      (∀ c ∈ s.toList, Text.upper (String.singleton c) = String.singleton c) ∧
        ∃ c ∈ s.toList, Text.lower (String.singleton c) ≠ String.singleton c) ∧
    (∀ u : Symbol, (∀ c, c ∈ u.toList ↔ c ∈ s.toList ∨ c ∈ t.toList) →
      u.isNonterminal = Symbol.isNonterminal (s ++ t)) ∧
    (∀ u : Symbol, u.toList.Perm (s.toList ++ t.toList) →
      u.isNonterminal = Symbol.isNonterminal (s ++ t)) ∧
    (s.isNonterminal → t.isNonterminal → Symbol.isNonterminal (s ++ t)) := by
  have hsame : ∀ u : Symbol, (∀ c, c ∈ u.toList ↔ c ∈ s.toList ∨ c ∈ t.toList) →
      u.isNonterminal = Symbol.isNonterminal (s ++ t) := by
    intro u hu
    apply Symbol.isNonterminal_congr
    intro c
    rw [hu c, String.toList_append, List.mem_append]
  refine ⟨Symbol.isNonterminal_iff, hsame, ?_, Symbol.isNonterminal_append⟩
  intro u hperm
  apply hsame u
  intro c
  rw [hperm.mem_iff, List.mem_append]

/-- A sigma at the end of a word, and a letter that becomes two in lower case. -/
theorem isNonterminal_by_characters_sigmas :
    Symbol.isNonterminal "ΟΔΟΣ" ∧ Symbol.isNonterminal "İ_2" ∧
      Symbol.isNonterminal ("ΟΔΟΣ" ++ "İ_2") ∧
      Symbol.isNonterminal "2İ_ΣΟΔΟ" = Symbol.isNonterminal ("ΟΔΟΣ" ++ "İ_2") := by
  have hs : Symbol.isNonterminal "ΟΔΟΣ" := by decide
  have ht : Symbol.isNonterminal "İ_2" := by decide
  have hperm : "2İ_ΣΟΔΟ".toList.Perm ("ΟΔΟΣ".toList ++ "İ_2".toList) := by decide
  obtain ⟨-, -, hreordered, hboth⟩ := isNonterminal_by_characters "ΟΔΟΣ" "İ_2"
  exact ⟨hs, ht, hboth hs ht, hreordered _ hperm⟩

/-- The whole can be a non-terminal where one of the parts is not. -/
example : Symbol.isNonterminal ("A" ++ "1") ∧ Symbol.isNonterminal "1" = false := by decide

end LRZero
