import LRZero.Proofs.AcceptedTexts

/-!
# Strict reading against lenient reading

Both run over the same lines and do the same up to the first unexpected one.
There strict reading stops, and lenient reading logs its first warning; if no
such line comes, the two readings are one (`unstopped_or_stopsAt`).  What is
logged after the lines has no warnings, so strict reading refuses just what
lenient reading warns of, and grammars that have problems.

Main statement: `strict_read`.
-/

namespace LRZero

/-! ## The first warning -/

/-- The first warning in a log. -/
def firstWarning? (log : List Event) : Option Event := log.find? (·.level = .warning)

theorem firstWarning?_eq_none_iff {log : List Event} : firstWarning? log = none ↔ Quiet log := by
  simp only [firstWarning?, List.find?_eq_none, Quiet, decide_eq_true_eq]
  refine forall₂_congr fun e _ => ?_
  cases e.level with
  | detail => simp
  | warning => simp

theorem firstWarning?_append_quiet {log tail : List Event} (h : Quiet tail) :
    firstWarning? (log ++ tail) = firstWarning? log := by
  have htail : firstWarning? tail = none := firstWarning?_eq_none_iff.mpr h
  rw [firstWarning?, List.find?_append, ← firstWarning?, ← firstWarning?, htail, Option.or_none]

theorem firstWarning?_append_warning {log : List Event} {e : Event} (h : Quiet log)
    (he : e.level = .warning) (rest : List Event) :
    firstWarning? (log ++ e :: rest) = some e := by
  have hlog : firstWarning? log = none := firstWarning?_eq_none_iff.mpr h
  rw [firstWarning?, List.find?_append, ← firstWarning?, hlog, Option.none_or]
  exact List.find?_cons_of_pos (decide_eq_true he)

/-! ## Lines -/

namespace Reading

variable {r s : Reading} {number : Nat} {line : String} {rest : List String}

/-- Strict reading gets through the lines as lenient reading does, with no warning. -/
structure Unstopped (r : Reading) (number : Nat) (ls : List String) : Prop where
  same : r.lines true number ls = r.lines false number ls
  quiet : Quiet (r.lines false number ls).log
  stopped : (r.lines true number ls).stopped = none

/-- Strict reading stops at the line in place `k`, of which lenient reading
logs its first warning. -/
structure StopsAt (r : Reading) (number : Nat) (ls : List String) (k : Nat) (line : String) :
    Prop where
  get : ls[k]? = some line
  stopped : (r.lines true number ls).stopped = some (number + k, line)
  warned : firstWarning? (r.lines false number ls).log =
    some (.unexpectedLine (number + k) (Text.strip line))

/-- The log only grows. -/
theorem prefix_lines (strict : Bool) (r : Reading) (number : Nat) (ls : List String) :
    r.log <+: (r.lines strict number ls).log := by
  fun_induction Reading.lines strict r number ls with
  | case1 => exact List.prefix_refl _
  | case2 _ _ _ _ _ ih => exact ih
  | case3 r _ _ _ rule _ ih =>
    obtain ⟨tail, -, he⟩ := r.exists_log_push rule
    exact List.IsPrefix.trans ⟨tail, he⟩ ih
  | case4 => exact List.prefix_refl _
  | case5 _ _ _ _ _ _ ih => exact (List.prefix_append _ _).trans ih

/-- A line with a meaning, or a blank one, leaves the question to the next lines. -/
theorem unstopped_or_stopsAt_cons
    (hstep : ∀ strict, r.lines strict number (line :: rest) = s.lines strict (number + 1) rest)
    (h : s.Unstopped (number + 1) rest ∨ ∃ k l, s.StopsAt (number + 1) rest k l) :
    r.Unstopped number (line :: rest) ∨ ∃ k l, r.StopsAt number (line :: rest) k l := by
  rcases h with h | ⟨k, l, h⟩
  · refine .inl ⟨?_, ?_, ?_⟩
    · rw [hstep, hstep, h.same]
    · rw [hstep]
      exact h.quiet
    · rw [hstep]
      exact h.stopped
  · have hk : number + (k + 1) = number + 1 + k := by omega
    refine .inr ⟨k + 1, l, ?_, ?_, ?_⟩
    · rw [List.getElem?_cons_succ, h.get]
    · rw [hstep, h.stopped, hk]
    · rw [hstep, h.warned, hk]

theorem unstopped_or_stopsAt : ∀ (ls : List String) (r : Reading) (number : Nat), Quiet r.log →
    r.stopped = none → r.Unstopped number ls ∨ ∃ k line, r.StopsAt number ls k line
  | [], r, number, hlog, hstopped => .inl ⟨rfl, hlog, hstopped⟩
  | line :: rest, r, number, hlog, hstopped => by
    cases hline : (Line.ofWords (Text.words line)).entry r.rules with
    | nothing =>
      exact unstopped_or_stopsAt_cons (fun _ => lines_cons_nothing rest hline)
        (unstopped_or_stopsAt rest r (number + 1) hlog hstopped)
    | rule rule =>
      exact unstopped_or_stopsAt_cons (fun _ => lines_cons_rule rest hline)
        (unstopped_or_stopsAt rest (r.push rule) (number + 1) (quiet_push hlog) hstopped)
    | unexpected =>
      refine .inr ⟨0, line, rfl, ?_, ?_⟩
      · simp only [lines, hline, if_true, Nat.add_zero]
      · simp only [lines, hline, Bool.false_eq_true, if_false]
        obtain ⟨tail, htail⟩ := prefix_lines false
          { r with log := r.log ++ [.unexpectedLine number (Text.strip line)] } (number + 1) rest
        rw [← htail, List.append_assoc]
        exact firstWarning?_append_warning hlog rfl tail

end Reading

/-! ## Texts -/

theorem read_eq_unexpectedLine_iff {strict : Bool} {text : String} {number : Nat} {line : String} :
    (read strict text).result = .error (.unexpectedLine number line) ↔
      (Reading.ofText strict text).stopped = some (number, line) := by
  rw [read]
  cases (Reading.ofText strict text).stopped with
  | some place => simp [Prod.ext_iff]
  | none =>
    cases Grammar.ofRules? (Reading.ofText strict text).rules with
    | none => simp
    | some g =>
      dsimp only
      split
      · simp
      · simp

/-- Only lines are warned of. -/
theorem firstWarning?_read (strict : Bool) (text : String) :
    firstWarning? (read strict text).log = firstWarning? (Reading.ofText strict text).log := by
  obtain ⟨tail, htail, hlog⟩ := exists_log_read strict text
  rw [hlog, firstWarning?_append_quiet htail]

/-- Strict reading accepts a text exactly if lenient reading accepts it without
a warning and the grammar has no problems, and both give the same grammar with
the same analysis.  It stops at a line exactly if lenient reading warns of one,
whatever becomes of that, and the line with its number is the first one warned of. -/
theorem strict_read (text : String) :
    (∀ a, (read true text).result = .ok a ↔
      (read false text).result = .ok a ∧ Quiet (read false text).log ∧ a.grammar.problems = []) ∧
    ((∃ n line, (read true text).result = .error (.unexpectedLine n line)) ↔
      ¬ Quiet (read false text).log) ∧
    ∀ n line, (read true text).result = .error (.unexpectedLine n line) →
      (∃ k, n = k + 1 ∧ (Text.lines text)[k]? = some line) ∧
        firstWarning? (read false text).log = some (.unexpectedLine n (Text.strip line)) := by
  simp only [read_eq_unexpectedLine_iff, read_eq_ok_iff, ← firstWarning?_eq_none_iff,
    firstWarning?_read]
  rcases Reading.unstopped_or_stopsAt (Text.lines text) ⟨[], [], none⟩ 1 quiet_nil rfl with
    h | ⟨k, line, h⟩
  · have hsame : Reading.ofText true text = Reading.ofText false text := h.same
    have hstopped : (Reading.ofText true text).stopped = none := h.stopped
    have hquiet : firstWarning? (Reading.ofText false text).log = none :=
      firstWarning?_eq_none_iff.mpr h.quiet
    rw [hsame] at hstopped
    simp [hsame, hstopped, hquiet, and_assoc]
  · have hstopped : (Reading.ofText true text).stopped = some (1 + k, line) := h.stopped
    have hwarned : firstWarning? (Reading.ofText false text).log =
        some (.unexpectedLine (1 + k) (Text.strip line)) := h.warned
    refine ⟨?_, ?_, ?_⟩
    · simp [hstopped, hwarned]
    · simp [hstopped, hwarned]
    · intro n l hl
      cases hstopped.symm.trans hl
      exact ⟨⟨k, Nat.add_comm 1 k, h.get⟩, hwarned⟩

/-- A rule, a blank line, and three lines that say nothing. -/
def strayLines : String := "A : a\n\n  ?? b\nc d\n??"

/-- Blank lines count, and the line is not stripped in the error. -/
theorem strict_read_strayLines :
    (read true strayLines).result = .error (.unexpectedLine 3 "  ?? b") ∧
      firstWarning? (read false strayLines).log = some (.unexpectedLine 3 "?? b") := by
  have hstop : (read true strayLines).result = .error (.unexpectedLine 3 "  ?? b") :=
    read_eq_unexpectedLine_iff.mpr (by decide +kernel)
  have hstrip : Text.strip "  ?? b" = "?? b" := by decide +kernel
  obtain ⟨-, -, hwarned⟩ := strict_read strayLines
  have hfirst := (hwarned 3 "  ?? b" hstop).2
  rw [hstrip] at hfirst
  exact ⟨hstop, hfirst⟩

end LRZero
