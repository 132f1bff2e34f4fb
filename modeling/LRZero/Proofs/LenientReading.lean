import Mathlib.Data.List.Induction
import LRZero.Proofs.AcceptedTexts

/-!
# Lenient reading, line by line

What becomes of a line is decided by the lines before it, and of those only the
headers count.  A header says a rule, and so does a line with a bar behind some
header (`ruleBehind?`); a line that says no rule and is not blank is warned of
(`warningBehind?`).  Lenient reading comes to the rules and the warnings of all
lines, in order: what it has read at some place is `Accounted` by the lines
before that place.  Lines that say no rule are no headers, so a text without
them is read to the same grammar.

Main statement: `lenient_read`.
-/

namespace LRZero

/-- The non-terminal of a header, by the words of the line: the first one is a
non-terminal and the second one a colon. -/
def headingOf? : List String → Option Symbol
  | x :: ":" :: _ => if Symbol.isNonterminal x then some x else none
  | _ => none

/-- The words behind the colon of a header, or behind a bar at the start of a line. -/
def bodyOf? : List String → Option (List Symbol)
  | "|" :: body => some body
  | x :: ":" :: body => if Symbol.isNonterminal x then some body else none
  | _ => none

/-- The non-terminal of a line that is a header. -/
def heading? (line : String) : Option Symbol := headingOf? (Text.words line)

/-- The non-terminal of the last header among some lines. -/
def lastHeading? (ls : List String) : Option Symbol := (ls.filterMap heading?).getLast?

/-- The rule that a line says behind some others.  Its result is that of the
nearest header, which is the line itself or stands before it. -/
def ruleBehind? (before : List String) (line : String) : Option Rule :=
  (bodyOf? (Text.words line)).bind fun body => (lastHeading? (before ++ [line])).map fun x => ⟨x, body⟩

/-- The warning of a line that says no rule behind some others and is not blank. -/
def warningBehind? (before : List String) (line : String) : Option Event :=
  if Text.words line = [] ∨ (ruleBehind? before line).isSome then none
  else some (.unexpectedLine (before.length + 1) (Text.strip line))

/-- The line itself, if it says a rule behind some others. -/
def keptBehind? (before : List String) (line : String) : Option String :=
  if (ruleBehind? before line).isSome then some line else none

/-- What some lines come to, in order, each one asked behind those before it. -/
def collectLines {α : Type} (f : List String → String → Option α) (ls : List String) : List α :=
  (List.range ls.length).filterMap fun k => ls[k]?.bind (f (ls.take k))

/-- The warnings of a log. -/
def warnings (log : List Event) : List Event := log.filter (·.level = .warning)

/-! ## Lists of lines that grow at the end -/

section

variable {before ls : List String} {line : String}

theorem collectLines_concat {α : Type} (f : List String → String → Option α) (ls : List String)
    (line : String) : collectLines f (ls ++ [line]) = collectLines f ls ++ (f ls line).toList := by
  have hbefore : ∀ k ∈ List.range ls.length,
      (ls ++ [line])[k]?.bind (f ((ls ++ [line]).take k)) = ls[k]?.bind (f (ls.take k)) := by
    intro k hk
    have hlt := List.mem_range.mp hk
    rw [List.getElem?_append_left hlt, List.take_append_of_le_length (Nat.le_of_lt hlt)]
  have hlast : (ls ++ [line])[ls.length]?.bind (f ((ls ++ [line]).take ls.length)) = f ls line := by
    rw [List.getElem?_concat_length, List.take_left, Option.bind_some]
  rw [collectLines, List.length_append, List.length_singleton, List.range_succ,
    List.filterMap_append, List.filterMap_congr hbefore, ← collectLines]
  congr 1
  rw [← hlast]
  simp only [List.filterMap_cons, List.filterMap_nil]
  split
  · next h => rw [h]; rfl
  · next h => rw [h]; rfl

theorem filterMap_heading?_concat (ls : List String) (line : String) :
    (ls ++ [line]).filterMap heading? = ls.filterMap heading? ++ (heading? line).toList := by
  rw [List.filterMap_append]
  cases h : heading? line <;> simp [h]

theorem lastHeading?_concat (ls : List String) (line : String) :
    lastHeading? (ls ++ [line]) = (heading? line).or (lastHeading? ls) := by
  rw [lastHeading?, filterMap_heading?_concat, List.getLast?_append, lastHeading?]
  cases heading? line <;> rfl

/-! ## What a line says -/

/-- The parts of a line, by what its words say. -/
theorem parts_of_words (ws : List String) :
    match Line.ofWords ws with
    | .blank => ws = [] ∧ headingOf? ws = none ∧ bodyOf? ws = none
    | .header x body => ws ≠ [] ∧ headingOf? ws = some x ∧ bodyOf? ws = some body
    | .alternative body => ws ≠ [] ∧ headingOf? ws = none ∧ bodyOf? ws = some body
    | .other => ws ≠ [] ∧ headingOf? ws = none ∧ bodyOf? ws = none := by
  fun_cases Line.ofWords ws with
  | case1 => exact ⟨rfl, rfl, rfl⟩
  | case2 body =>
    refine ⟨List.cons_ne_nil _ _, ?_, rfl⟩
    unfold headingOf?
    split
    · next heq =>
      obtain ⟨rfl, -⟩ := List.cons.inj heq
      exact if_neg fun h => Line.bar_ne_of_isNonterminal h rfl
    · rfl
  | case3 x body hbar hx =>
    exact ⟨List.cons_ne_nil _ _, if_pos hx, by rw [bodyOf?.eq_2 _ _ hbar, if_pos hx]⟩
  | case4 x body hbar hx =>
    exact ⟨List.cons_ne_nil _ _, if_neg hx, by rw [bodyOf?.eq_2 _ _ hbar, if_neg hx]⟩
  | case5 _ hnil hbar hcolon =>
    exact ⟨hnil, headingOf?.eq_2 _ hcolon, bodyOf?.eq_3 _ hbar hcolon⟩

theorem lastHeading?_of_ruleBehind? {r : Rule} (h : ruleBehind? before line = some r) :
    lastHeading? (before ++ [line]) = some r.result := by
  obtain ⟨body, -, hr⟩ := Option.bind_eq_some_iff.mp h
  obtain ⟨x, hx, rfl⟩ := Option.map_eq_some_iff.mp hr
  exact hx

/-- A header always says a rule. -/
theorem heading?_eq_none (h : ruleBehind? before line = none) : heading? line = none := by
  have hparts := parts_of_words (Text.words line)
  cases hline : Line.ofWords (Text.words line) with
  | header x body =>
    rw [hline] at hparts
    obtain ⟨-, hx, hbody⟩ := hparts
    rw [ruleBehind?, lastHeading?_concat, heading?, hx, hbody] at h
    cases h
  | blank => exact (hline ▸ hparts).2.1
  | alternative body => exact (hline ▸ hparts).2.1
  | other => exact (hline ▸ hparts).2.1

/-- The meaning of a line, where the last rule read is one of the last header. -/
theorem entry_eq {rules : List Rule}
    (hlast : rules.getLast?.map (·.result) = lastHeading? before) :
    (Line.ofWords (Text.words line)).entry rules =
      match ruleBehind? before line with
      | some r => .rule r
      | none => if Text.words line = [] then .nothing else .unexpected := by
  have hparts := parts_of_words (Text.words line)
  rw [ruleBehind?, lastHeading?_concat, heading?, ← hlast]
  cases hline : Line.ofWords (Text.words line) with
  | blank =>
    rw [hline] at hparts
    obtain ⟨hwords, -, hbody⟩ := hparts
    simp only [hbody, Line.entry, Option.bind_none]
    exact (if_pos hwords).symm
  | header x body =>
    rw [hline] at hparts
    obtain ⟨-, hx, hbody⟩ := hparts
    simp only [hbody, hx, Line.entry, Option.bind_some, Option.some_or, Option.map_some]
  | alternative body =>
    rw [hline] at hparts
    obtain ⟨hwords, hx, hbody⟩ := hparts
    cases hrule : rules.getLast? with
    | none => simp only [hbody, hx, hwords, hrule, Line.entry, Option.bind_some, Option.none_or,
        Option.map_none, if_false]
    | some r => simp only [hbody, hx, hrule, Line.entry, Option.bind_some, Option.none_or,
        Option.map_some]
  | other =>
    rw [hline] at hparts
    obtain ⟨hwords, -, hbody⟩ := hparts
    simp only [hbody, hwords, Line.entry, Option.bind_none, if_false]

/-! ## Reading on -/

theorem warnings_append (log log' : List Event) :
    warnings (log ++ log') = warnings log ++ warnings log' := List.filter_append log log'

theorem warnings_eq_nil_iff {log : List Event} : warnings log = [] ↔ Quiet log := by
  simp only [warnings, List.filter_eq_nil_iff, Quiet, decide_eq_true_eq]
  refine forall₂_congr fun e _ => ?_
  cases e.level with
  | detail => simp
  | warning => simp

theorem warnings_append_quiet {log tail : List Event} (h : Quiet tail) :
    warnings (log ++ tail) = warnings log := by
  rw [warnings_append, warnings_eq_nil_iff.mpr h, List.append_nil]

/-- What has been read is what the lines so far come to. -/
structure Accounted (before : List String) (r : Reading) : Prop where
  rules : r.rules = collectLines ruleBehind? before
  warned : warnings r.log = collectLines warningBehind? before
  stopped : r.stopped = none
  first : r.rules.head?.map (·.result) = (before.filterMap heading?).head?
  last : r.rules.getLast?.map (·.result) = lastHeading? before

namespace Accounted

variable {r : Reading}

/-- The first rule is that of the first header. -/
theorem first_push (h : Accounted before r) {rule : Rule}
    (hrule : ruleBehind? before line = some rule) :
    (r.push rule).rules.head?.map (·.result) = ((before ++ [line]).filterMap heading?).head? := by
  rw [Reading.push, List.head?_append, filterMap_heading?_concat, List.head?_append, ← h.first]
  cases hhead : r.rules.head? with
  | some s => rfl
  | none =>
    -- no rule so far means no header, so the line is one
    have hlast := lastHeading?_of_ruleBehind? hrule
    rw [lastHeading?_concat, ← h.last, List.head?_eq_none_iff.mp hhead] at hlast
    have hline : heading? line = some rule.result := by
      rw [← hlast]
      exact Option.or_none.symm
    rw [hline]
    rfl

/-- A line that says a rule. -/
theorem push (h : Accounted before r) {rule : Rule} (hrule : ruleBehind? before line = some rule) :
    Accounted (before ++ [line]) (r.push rule) := by
  have hwarning : warningBehind? before line = none := if_pos (.inr (by rw [hrule]; rfl))
  refine ⟨?_, ?_, h.stopped, first_push h hrule, ?_⟩
  · rw [collectLines_concat, hrule, ← h.rules]
    rfl
  · obtain ⟨tail, htail, he⟩ := r.exists_log_push rule
    rw [← he, warnings_append_quiet htail, h.warned, collectLines_concat, hwarning]
    exact (List.append_nil _).symm
  · rw [lastHeading?_of_ruleBehind? hrule, r.getLast?_push]

/-- A line that says no rule, with what is logged of it. -/
theorem skip (h : Accounted before r) (hrule : ruleBehind? before line = none) {log : List Event}
    (hlog : warnings log = collectLines warningBehind? (before ++ [line])) :
    Accounted (before ++ [line]) { r with log := log } := by
  have hheading := heading?_eq_none hrule
  refine ⟨?_, hlog, h.stopped, ?_, ?_⟩
  · rw [collectLines_concat, hrule, ← h.rules]
    exact (List.append_nil _).symm
  · rw [filterMap_heading?_concat, hheading]
    exact h.first.trans (congrArg List.head? (List.append_nil _).symm)
  · rw [lastHeading?_concat, hheading]
    exact h.last

/-- Reading on over more lines. -/
theorem lines : ∀ (rest before : List String) (r : Reading), Accounted before r →
    Accounted (before ++ rest) (r.lines false (before.length + 1) rest)
  | [], before, r, h => by
    rw [List.append_nil]
    exact h
  | line :: rest, before, r, h => by
    have hentry : (Line.ofWords (Text.words line)).entry r.rules = _ := entry_eq h.last
    have hnumber : (before ++ [line]).length = before.length + 1 := List.length_append
    rw [List.append_cons]
    cases hrule : ruleBehind? before line with
    | some rule =>
      rw [hrule] at hentry
      have ih := lines rest _ _ (h.push hrule)
      rw [hnumber] at ih
      rwa [Reading.lines_cons_rule rest hentry]
    | none =>
      rw [hrule] at hentry
      by_cases hwords : Text.words line = []
      · have hwarning : warningBehind? before line = none := if_pos (.inl hwords)
        have hlog : warnings r.log = collectLines warningBehind? (before ++ [line]) := by
          rw [collectLines_concat, hwarning, ← h.warned]
          exact (List.append_nil _).symm
        have ih := lines rest _ _ (h.skip hrule hlog)
        rw [hnumber] at ih
        rwa [Reading.lines_cons_nothing rest (hentry.trans (if_pos hwords))]
      · have hwarning : warningBehind? before line =
            some (.unexpectedLine (before.length + 1) (Text.strip line)) := by
          rw [warningBehind?, hrule, if_neg]
          simpa using hwords
        have hlog : warnings (r.log ++ [.unexpectedLine (before.length + 1) (Text.strip line)]) =
            collectLines warningBehind? (before ++ [line]) := by
          rw [collectLines_concat, hwarning, warnings_append, h.warned]
          rfl
        have ih := lines rest _ _ (h.skip hrule hlog)
        rw [hnumber] at ih
        rwa [Reading.lines_cons_unexpected rest (hentry.trans (if_neg hwords))]

end Accounted

/-- The reading of a text is what its lines come to. -/
theorem accounted_lines (text : String) :
    Accounted (Text.lines text) (Reading.ofText false text) :=
  Accounted.lines (Text.lines text) [] _ ⟨rfl, rfl, rfl, rfl, rfl⟩

/-! ## Leaving lines out -/

/-- A line says the same behind others with the same headers. -/
theorem ruleBehind?_congr {before' : List String}
    (h : before.filterMap heading? = before'.filterMap heading?) :
    ruleBehind? before line = ruleBehind? before' line := by
  rw [ruleBehind?, ruleBehind?, lastHeading?_concat, lastHeading?_concat, lastHeading?, lastHeading?, h]

theorem kept_concat_of_some {r : Rule} (h : ruleBehind? ls line = some r) :
    collectLines keptBehind? (ls ++ [line]) = collectLines keptBehind? ls ++ [line] := by
  rw [collectLines_concat, keptBehind?, h]
  rfl

theorem kept_concat_of_none (h : ruleBehind? ls line = none) :
    collectLines keptBehind? (ls ++ [line]) = collectLines keptBehind? ls := by
  rw [collectLines_concat, keptBehind?, h]
  exact List.append_nil _

/-- All headers are kept. -/
theorem filterMap_heading?_kept (ls : List String) :
    (collectLines keptBehind? ls).filterMap heading? = ls.filterMap heading? := by
  induction ls using List.reverseRecOn with
  | nil => rfl
  | append_singleton ls line ih =>
    rw [filterMap_heading?_concat]
    cases hrule : ruleBehind? ls line with
    | some rule => rw [kept_concat_of_some hrule, filterMap_heading?_concat, ih]
    | none =>
      rw [kept_concat_of_none hrule, heading?_eq_none hrule, ih]
      exact (List.append_nil _).symm

/-- The lines that say rules say the same ones without the others, and none of
them is warned of. -/
theorem collectLines_kept (ls : List String) :
    collectLines ruleBehind? (collectLines keptBehind? ls) = collectLines ruleBehind? ls ∧
      collectLines warningBehind? (collectLines keptBehind? ls) = [] := by
  induction ls using List.reverseRecOn with
  | nil => exact ⟨rfl, rfl⟩
  | append_singleton ls line ih =>
    obtain ⟨hrules, hwarned⟩ := ih
    cases hrule : ruleBehind? ls line with
    | none =>
      rw [kept_concat_of_none hrule, collectLines_concat ruleBehind? ls, hrule]
      exact ⟨hrules.trans (List.append_nil _).symm, hwarned⟩
    | some rule =>
      have hkept : ruleBehind? (collectLines keptBehind? ls) line = some rule :=
        (ruleBehind?_congr (filterMap_heading?_kept ls)).trans hrule
      have hwarning : warningBehind? (collectLines keptBehind? ls) line = none :=
        if_pos (.inr (by rw [hkept]; rfl))
      rw [kept_concat_of_some hrule, collectLines_concat ruleBehind?,
        collectLines_concat ruleBehind?, collectLines_concat warningBehind?, hkept, hrule, hrules,
        hwarned, hwarning]
      exact ⟨rfl, rfl⟩

theorem mem_of_mem_kept (h : line ∈ collectLines keptBehind? ls) :
    line ∈ ls ∧ Text.words line ≠ [] := by
  obtain ⟨k, -, hk⟩ := List.mem_filterMap.mp h
  obtain ⟨l, hl, hkept⟩ := Option.bind_eq_some_iff.mp hk
  rw [keptBehind?] at hkept
  split at hkept
  · next hrule =>
    cases hkept
    refine ⟨List.mem_of_getElem? hl, fun hwords => ?_⟩
    rw [ruleBehind?, hwords] at hrule
    cases hrule
  · cases hkept

/-- The kept lines of a text, joined by line feeds, are the lines of a text. -/
theorem lines_kept (text : String) :
    Text.lines ("\n".intercalate (collectLines keptBehind? (Text.lines text))) =
      collectLines keptBehind? (Text.lines text) := by
  refine Text.lines_intercalate_all fun line hline => ?_
  obtain ⟨hmem, hwords⟩ := mem_of_mem_kept hline
  refine ⟨Text.oneLine_of_mem_lines hmem, ?_⟩
  rintro rfl
  exact hwords rfl

/-! ## Texts -/

theorem exists_heading?_iff : (∃ line ∈ ls, (heading? line).isSome) ↔
    ¬ ∀ line ∈ ls, heading? line = none := by
  simp only [not_forall, ← Option.isSome_iff_ne_none, exists_prop]

/-- There are rules exactly if there is a header. -/
theorem rules_eq_nil_iff (text : String) :
    (Reading.ofText false text).rules = [] ↔ ∀ line ∈ Text.lines text, heading? line = none := by
  calc (Reading.ofText false text).rules = []
      ↔ (Reading.ofText false text).rules.head?.map (·.result) = none := by
        rw [Option.map_eq_none_iff, List.head?_eq_none_iff]
    _ ↔ ((Text.lines text).filterMap heading?).head? = none := by rw [(accounted_lines text).first]
    _ ↔ ∀ line ∈ Text.lines text, heading? line = none := by
        rw [List.head?_eq_none_iff, List.filterMap_eq_nil_iff]

/-- Lenient reading accounts for every line of a text.  It finds no rules exactly
if there is no header.  All warnings are those of lines that say no rule and are
not blank, with the numbers of these lines.  Otherwise the rules are those that
the lines say, the first header gives the start symbol, and any text made of
the lines that say rules alone is read to the same without a warning. -/
theorem lenient_read (text : String) :
    ((read false text).result = .error .noRules ↔
      ∀ line ∈ Text.lines text, heading? line = none) ∧
    ReadError.noRules.message = "no rules found" ∧
    warnings (read false text).log = collectLines warningBehind? (Text.lines text) ∧
    ((∃ line ∈ Text.lines text, (heading? line).isSome) →
      ∃ a, (read false text).result = .ok a ∧
        a.grammar.rules = collectLines ruleBehind? (Text.lines text) ∧
        ((Text.lines text).filterMap heading?).head? = some a.grammar.start ∧
        Text.lines ("\n".intercalate (collectLines keptBehind? (Text.lines text))) =
          collectLines keptBehind? (Text.lines text) ∧
        ∀ text', Text.lines text' = collectLines keptBehind? (Text.lines text) →
          (read false text').result = .ok a ∧ Quiet (read false text').log) := by
  have haccounted := accounted_lines text
  refine ⟨?_, rfl, ?_, ?_⟩
  · rw [read_eq_noRules_iff, rules_eq_nil_iff]
    exact and_iff_right haccounted.stopped
  · obtain ⟨tail, htail, hlog⟩ := exists_log_read false text
    rw [hlog, warnings_append_quiet htail, haccounted.warned]
  · intro hheader
    have hne : (Reading.ofText false text).rules ≠ [] := fun hnil =>
      exists_heading?_iff.mp hheader ((rules_eq_nil_iff text).mp hnil)
    obtain ⟨g, hg⟩ := Grammar.exists_ofRules? hne
    obtain ⟨hrules, hstart, -, -⟩ := Grammar.parts_of_ofRules? hg
    have hread : ∀ {t}, (Reading.ofText false t).stopped = none →
        (Reading.ofText false t).rules = (Reading.ofText false text).rules →
        (read false t).result = .ok ⟨g, g.analysis⟩ := by
      intro t hstopped he
      exact read_eq_ok_iff.mpr ⟨hstopped, he ▸ hg, rfl, fun h => nomatch h⟩
    refine ⟨⟨g, g.analysis⟩, hread haccounted.stopped rfl, hrules.trans haccounted.rules, ?_,
      lines_kept text, ?_⟩
    · rw [← hstart, haccounted.first]
    · intro text' hlines
      have hkept := accounted_lines text'
      obtain ⟨hsame, hquiet⟩ := collectLines_kept (Text.lines text)
      rw [hlines] at hkept
      refine ⟨hread hkept.stopped ?_, ?_⟩
      · rw [hkept.rules, hsame, haccounted.rules]
      · obtain ⟨tail, htail, hlog⟩ := exists_log_read false text'
        rw [← warnings_eq_nil_iff, hlog, warnings_append_quiet htail, hkept.warned, hquiet]

/-- Alternatives before and behind a header, and lines that say nothing. -/
def mixedLines : String := "| x\nA : a B\n\nA = b\n | : |\nB"

/-- The alternative before the header is warned of, the other one is the second rule. -/
theorem lenient_read_mixed :
    (∃ line ∈ Text.lines mixedLines, (heading? line).isSome) ∧
      (∃ a, (read false mixedLines).result = .ok a ∧
        a.grammar.rules = [⟨"A", ["a", "B"]⟩, ⟨"A", [":", "|"]⟩]) ∧
      warnings (read false mixedLines).log =
        [.unexpectedLine 1 "| x", .unexpectedLine 4 "A = b", .unexpectedLine 6 "B"] := by
  have hheader : ∃ line ∈ Text.lines mixedLines, (heading? line).isSome := by decide +kernel
  have hrules : collectLines ruleBehind? (Text.lines mixedLines) =
      [⟨"A", ["a", "B"]⟩, ⟨"A", [":", "|"]⟩] := by decide +kernel
  have hwarned : collectLines warningBehind? (Text.lines mixedLines) =
      [.unexpectedLine 1 "| x", .unexpectedLine 4 "A = b", .unexpectedLine 6 "B"] := by
    decide +kernel
  obtain ⟨-, -, hwarnings, hread⟩ := lenient_read mixedLines
  obtain ⟨a, ha, he, -⟩ := hread hheader
  exact ⟨hheader, ⟨a, ha, he.trans hrules⟩, hwarnings.trans hwarned⟩

end

end LRZero
