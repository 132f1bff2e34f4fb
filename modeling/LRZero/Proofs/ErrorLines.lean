import LRZero.CommandLine
import LRZero.Proofs.MissingRules

/-!
# Errors are told in one line

What the program prints when it fails is the log and one line for the error.
The log is made of whole lines, and no message holds a line end: a quoted text
shows its line ends escaped (`oneLine_quoted`), and the symbols named in a
message are words.  So the last line printed is that of the error.

Main statements: `oneLine_of_read`, `oneLine_of_openFault`, `last_line_of_error`.
-/

namespace LRZero

namespace Text

/-! ## Quoted texts -/

/-- The code points of the line ends. -/
def lineEndCodes : List Nat := [10, 11, 12, 13, 28, 29, 30, 133, 8232, 8233]

theorem mem_lineEndCodes {c : Char} (h : isLineEnd c) : c.toNat ∈ lineEndCodes := by
  simp only [isLineEnd, Bool.or_eq_true, Bool.and_eq_true, decide_eq_true_eq, Char.le_def,
    UInt32.le_iff_toNat_le] at h
  rw [lineEndCodes]
  rcases h with (((h | h) | rfl) | rfl) | rfl
  · change 10 ≤ c.toNat ∧ c.toNat ≤ 13 at h
    simp only [List.mem_cons]
    omega
  · change 28 ≤ c.toNat ∧ c.toNat ≤ 30 at h
    simp only [List.mem_cons]
    omega
  · decide
  · decide
  · decide

theorem not_isPrintable_of_isLineEnd {c : Char} (h : isLineEnd c) : ¬ isPrintable c := by
  have hall : ∀ n ∈ lineEndCodes, inRanges unprintableRanges n := by decide +kernel
  simp [isPrintable, hall _ (mem_lineEndCodes h)]

theorem not_isLineEnd_of_mem_hexDigits {d : Char} : ∀ {width n : Nat}, d ∈ hexDigits width n →
    ¬ isLineEnd d
  | 0, _, h => absurd h List.not_mem_nil
  | width + 1, n, h => by
    rcases List.mem_append.mp h with h | h
    · exact not_isLineEnd_of_mem_hexDigits h
    · have hall : ∀ k < 16, ¬ isLineEnd (hexDigit k) := by decide
      rw [List.mem_singleton.mp h]
      exact hall _ (Nat.mod_lt _ (by decide))

theorem not_isLineEnd_of_mem_escapeCode {d : Char} {n : Nat} (h : d ∈ escapeCode n) :
    ¬ isLineEnd d := by
  have hbackslash : ¬ isLineEnd '\\' := by decide
  have hprefix : ∀ {letter : Char} {width : Nat}, ¬ isLineEnd letter →
      d ∈ '\\' :: letter :: hexDigits width n → ¬ isLineEnd d := by
    intro letter width hletter h
    rcases List.mem_cons.mp h with rfl | h
    · exact hbackslash
    · rcases List.mem_cons.mp h with rfl | h
      · exact hletter
      · exact not_isLineEnd_of_mem_hexDigits h
  rw [escapeCode] at h
  split at h
  · exact hprefix (by decide) h
  · split at h
    · exact hprefix (by decide) h
    · exact hprefix (by decide) h

/-- A line end is shown by other characters. -/
theorem not_isLineEnd_of_mem_escape {quote c d : Char} (hquote : ¬ isLineEnd quote)
    (h : d ∈ escape quote c) : ¬ isLineEnd d := by
  have hpair : ∀ {a b : Char}, ¬ isLineEnd a → ¬ isLineEnd b → d ∈ [a, b] → ¬ isLineEnd d := by
    intro a b ha hb h
    rcases List.mem_cons.mp h with rfl | h
    · exact ha
    · rwa [List.mem_singleton.mp h]
  rw [escape] at h
  split at h
  · next hc =>
    refine hpair (by decide) ?_ h
    rcases hc with rfl | rfl
    · exact hquote
    · decide
  split at h
  · exact hpair (by decide) (by decide) h
  split at h
  · exact hpair (by decide) (by decide) h
  split at h
  · exact hpair (by decide) (by decide) h
  split at h
  · next hprintable =>
    rw [List.mem_singleton.mp h]
    exact fun hend => not_isPrintable_of_isLineEnd hend hprintable
  · exact not_isLineEnd_of_mem_escapeCode h

theorem not_isLineEnd_quoteFor (cs : List Char) : ¬ isLineEnd (quoteFor cs) := by
  rw [quoteFor]
  split
  · decide
  · decide

theorem oneLine_quoted (s : String) : OneLine (quoted s) := by
  intro d hd
  rw [quoted, String.toList_ofList] at hd
  rcases List.mem_cons.mp hd with rfl | hd
  · exact not_isLineEnd_quoteFor _
  rcases List.mem_append.mp hd with hd | hd
  · obtain ⟨c, -, hc⟩ := List.mem_flatMap.mp hd
    exact not_isLineEnd_of_mem_escape (not_isLineEnd_quoteFor _) hc
  · rw [List.mem_singleton.mp hd]
    exact not_isLineEnd_quoteFor _

theorem not_isLineEnd_of_isDigit {c : Char} (h : c.isDigit) : ¬ isLineEnd c := by
  intro hend
  have hcode := mem_lineEndCodes hend
  simp only [Char.isDigit, Bool.and_eq_true, decide_eq_true_eq, UInt32.le_iff_toNat_le] at h
  change 48 ≤ c.toNat ∧ c.toNat ≤ 57 at h
  simp only [lineEndCodes, List.mem_cons, List.not_mem_nil, or_false] at hcode
  omega

theorem oneLine_toString (n : Nat) : OneLine (toString n) := by
  intro c hc
  rw [Nat.toString_eq_ofList_toDigits, String.toList_ofList] at hc
  exact not_isLineEnd_of_isDigit (Nat.isDigit_of_mem_toDigits (by decide) (by decide) hc)

/-! ## The last line -/

/-- The text is made of whole lines. -/
def Whole (s : String) : Prop := s = "" ∨ ∃ t, s = t ++ "\n"

theorem Whole.append {s t : String} (hs : Whole s) (ht : Whole t) : Whole (s ++ t) := by
  rcases ht with rfl | ⟨u, rfl⟩
  · rwa [String.append_empty]
  · exact .inr ⟨s ++ u, (String.append_assoc ..).symm⟩

theorem whole_join : ∀ {l : List String}, (∀ s ∈ l, Whole s) → Whole (String.join l)
  | [], _ => .inl rfl
  | s :: l, h => by
    rw [String.join_cons]
    exact (h s List.mem_cons_self).append (whole_join fun t ht => h t (List.mem_cons_of_mem _ ht))

/-- A line behind whole lines is the last one. -/
theorem getLast?_lines {s l : String} (hs : Whole s) (hl : OneLine l) :
    (lines (s ++ (l ++ "\n"))).getLast? = some l := by
  rcases hs with rfl | ⟨t, rfl⟩
  · rw [String.empty_append, lines_newline hl]
    rfl
  · rw [lines_append_newline, lines_newline hl]
    exact List.getLast?_concat

end Text

/-! ## Messages -/

theorem oneLine_of_openFault (fault : OpenFault) (path : String) :
    Text.OneLine (fault.message path) := by
  cases fault <;> exact Text.OneLine.append (by decide) (Text.oneLine_quoted path)

/-- The errors that a text can be refused with. -/
theorem read_eq_error_cases {strict : Bool} {text : String} {e : ReadError}
    (h : (read strict text).result = .error e) :
    (∃ number line, e = .unexpectedLine number line) ∨ e = .noRules ∨
      ∃ g, Grammar.ofRules? (Reading.ofText strict text).rules = some g ∧
        e = .problems g.problems := by
  cases hstopped : (Reading.ofText strict text).stopped with
  | some place =>
    rw [read, hstopped] at h
    cases h
    exact .inl ⟨_, _, rfl⟩
  | none =>
    cases hg : Grammar.ofRules? (Reading.ofText strict text).rules with
    | none =>
      rw [read, hstopped, hg] at h
      cases h
      exact .inr (.inl rfl)
    | some g =>
      rw [result_read hstopped hg] at h
      split at h
      · cases h
        exact .inr (.inr ⟨g, rfl, rfl⟩)
      · cases h

/-- The problems of a grammar that has been read name words. -/
theorem oneLine_of_mem_problems {strict : Bool} {text : String} {g : Grammar}
    (hg : Grammar.ofRules? (Reading.ofText strict text).rules = some g) {p : Grammar.Problem}
    (hp : p ∈ g.problems) : Text.OneLine p.message := by
  have hreadable : ∀ r ∈ (Reading.ofText strict text).rules, r.Readable :=
    Reading.readable_of_mem_ofText
  rw [Grammar.problems_ofRules? hg fun r hr => (hreadable r hr).isNonterminal] at hp
  obtain ⟨x, hx, rfl⟩ := List.mem_map.mp hp
  obtain ⟨-, ⟨r, hr, hbody⟩, -⟩ := (Grammar.mem_missing hg).mp hx
  have hword : Text.OneLine x := ((hreadable r hr).body x hbody).oneLine
  have hbefore : Text.OneLine "Non-terminal '" := by decide
  have hbehind : Text.OneLine "' has no rules" := by decide
  exact (hbefore.append hword).append hbehind

/-- The error of a text that is refused is told in one line. -/
theorem oneLine_of_read {strict : Bool} {text : String} {e : ReadError}
    (h : (read strict text).result = .error e) : Text.OneLine e.message := by
  rcases read_eq_error_cases h with ⟨number, line, rfl⟩ | rfl | ⟨g, hg, rfl⟩
  · have hbefore : Text.OneLine "line " := by decide
    have hcolon : Text.OneLine ": " := by decide
    have hreason : Text.OneLine "unexpected input" := by decide
    have hplace := (hbefore.append (Text.oneLine_toString number)).append hcolon
    rw [ReadError.message]
    exact ((hplace.append hreason).append hcolon).append (Text.oneLine_quoted line)
  · decide
  · refine Text.OneLine.intercalate (by decide) fun m hm => ?_
    obtain ⟨p, hp, rfl⟩ := List.mem_map.mp hm
    exact oneLine_of_mem_problems hg hp

/-! ## What is printed -/

namespace CommandLine

theorem whole_logText (verbose : Bool) (log : List Event) : Text.Whole (logText verbose log) := by
  refine Text.whole_join fun s hs => ?_
  obtain ⟨e, -, rfl⟩ := List.mem_map.mp hs
  exact .inr ⟨_, rfl⟩

/-- Behind the log, a message that is one line makes the last line. -/
theorem last_line_of_error {log message : String} (hlog : Text.Whole log)
    (hmessage : Text.OneLine message) :
    (Text.lines (log ++ errorText message)).getLast? = some ("error: " ++ message) := by
  have hbefore : Text.OneLine "error: " := by decide
  exact Text.getLast?_lines hlog (hbefore.append hmessage)

end CommandLine

end LRZero
