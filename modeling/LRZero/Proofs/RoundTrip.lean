import LRZero.Proofs.AcceptedTexts

/-!
# Rules that are written down are read again

`Written` says how rules may be laid out: each on a line of its own, with its
result and a colon or, behind a rule with the same result, with a bar, and with
blank lines anywhere.  The reader takes in one rule for each such line, so it
comes to the very rules that were written, and a grammar that has been read is
read again from its own rules.  Symbols may be bars or colons themselves.

Main statement: `read_written`.
-/

namespace LRZero

/-- `Written prev rules ls`: the lines say the rules, where the rule before
them has the result `prev`. -/
inductive Written : Option Symbol → List Rule → List String → Prop
  | done {prev : Option Symbol} : Written prev [] []
  | blank {prev : Option Symbol} {rules : List Rule} {l : String} {ls : List String} :
      Text.Blank l → Written prev rules ls → Written prev rules (l :: ls)
  | header {prev : Option Symbol} {r : Rule} {rules : List Rule} {ls : List String} :
      Written (some r.result) rules ls → Written prev (r :: rules) (r.text :: ls)
  | alternative {r : Rule} {rules : List Rule} {ls : List String} :
      Written (some r.result) rules ls →
        Written (some r.result) (r :: rules) (("| " ++ " ".intercalate r.body) :: ls)

/-- Rules can be written with a line of its own for each. -/
theorem written_texts : ∀ (prev : Option Symbol) (rules : List Rule),
    Written prev rules (rules.map (·.text))
  | _, [] => .done
  | _, r :: rules => .header (written_texts (some r.result) rules)

/-! ## The lines of rules -/

namespace Rule

variable {r : Rule}

theorem text_eq (r : Rule) : r.text = r.result ++ " " ++ (":" ++ " " ++ " ".intercalate r.body) := by
  have hcolon : " : " = " " ++ (":" ++ " ") := rfl
  rw [text, hcolon]
  simp only [String.append_assoc]

theorem words_text (h : r.Readable) : Text.words r.text = r.result :: ":" :: r.body := by
  rw [text_eq, Text.words_append_space, Text.words_append_space, Text.words_of_isWord h.result,
    Text.words_intercalate h.body]
  rfl

theorem words_alternative (h : r.Readable) :
    Text.words ("| " ++ " ".intercalate r.body) = "|" :: r.body := by
  have hbar : "| " = "|" ++ " " := rfl
  rw [hbar, Text.words_append_space, Text.words_intercalate h.body]
  rfl

theorem oneLine_text (h : r.Readable) : Text.OneLine r.text := by
  have hcolon : Text.OneLine " : " := by decide
  exact (h.result.oneLine.append hcolon).append (Text.oneLine_intercalate h.body)

theorem oneLine_alternative (h : r.Readable) :
    Text.OneLine ("| " ++ " ".intercalate r.body) := by
  have hbar : Text.OneLine "| " := by decide
  exact hbar.append (Text.oneLine_intercalate h.body)

theorem text_ne_empty (r : Rule) : r.text ≠ "" := by
  intro h
  have hcolon : ':' ∈ r.text.toList := by
    rw [text]
    simp
  rw [h] at hcolon
  exact absurd hcolon List.not_mem_nil

theorem alternative_ne_empty (r : Rule) : "| " ++ " ".intercalate r.body ≠ "" := by
  intro h
  have hbar : '|' ∈ ("| " ++ " ".intercalate r.body).toList := by simp
  rw [h] at hbar
  exact absurd hbar List.not_mem_nil

end Rule

/-! ## Reading them -/

namespace Reading

variable {strict : Bool}

theorem lines_blank_append {bs : List String} (hbs : ∀ b ∈ bs, Text.Blank b) (ls : List String) :
    ∀ (r : Reading) (number : Nat),
      r.lines strict number (bs ++ ls) = r.lines strict (number + bs.length) ls := by
  induction bs with
  | nil => exact fun _ _ => rfl
  | cons b bs ih =>
    intro r number
    have hb : (Line.ofWords (Text.words b)).entry r.rules = .nothing := by
      rw [Text.words_of_blank (hbs b List.mem_cons_self)]
      rfl
    rw [List.cons_append, lines_cons_nothing _ hb, ih fun c hc => hbs c (List.mem_cons_of_mem _ hc),
      List.length_cons, Nat.add_assoc, Nat.add_comm 1]

theorem entry_text {rules : List Rule} {s : Rule} (h : s.Readable) :
    (Line.ofWords (Text.words s.text)).entry rules = .rule s := by
  rw [Rule.words_text h, Line.ofWords_header h.isNonterminal]
  rfl

theorem entry_alternative {rules : List Rule} {s : Rule} (h : s.Readable)
    (hlast : rules.getLast?.map (·.result) = some s.result) :
    (Line.ofWords (Text.words ("| " ++ " ".intercalate s.body))).entry rules = .rule s := by
  obtain ⟨t, ht, hresult⟩ := Option.map_eq_some_iff.mp hlast
  rw [Rule.words_alternative h, Line.ofWords_bar]
  simp only [Line.entry, ht, hresult]

/-- Each line of a rule adds the rule, and blank lines add nothing. -/
theorem lines_written {prev : Option Symbol} {rules : List Rule} {ls : List String}
    (h : Written prev rules ls) (hrules : ∀ s ∈ rules, s.Readable) :
    ∀ (r : Reading) (number : Nat), r.rules.getLast?.map (·.result) = prev →
      r.lines strict number (Text.lines ("\n".intercalate ls)) = rules.foldl push r := by
  induction h with
  | done => exact fun _ _ _ => rfl
  | @blank prev rules l ls hl _ ih =>
    intro r number hprev
    obtain ⟨bs, hbs, he⟩ := Text.lines_intercalate_blank hl ls
    rw [he, lines_blank_append hbs]
    exact ih hrules r _ hprev
  | @header prev s rules ls _ ih =>
    intro r number _
    have hs := hrules s List.mem_cons_self
    rw [Text.lines_intercalate (Rule.oneLine_text hs) s.text_ne_empty,
      lines_cons_rule _ (entry_text hs), List.foldl_cons]
    exact ih (fun t ht => hrules t (List.mem_cons_of_mem _ ht)) _ _ (getLast?_push r s)
  | @alternative s rules ls _ ih =>
    intro r number hprev
    have hs := hrules s List.mem_cons_self
    rw [Text.lines_intercalate (Rule.oneLine_alternative hs) s.alternative_ne_empty,
      lines_cons_rule _ (entry_alternative hs hprev), List.foldl_cons]
    exact ih (fun t ht => hrules t (List.mem_cons_of_mem _ ht)) _ _ (getLast?_push r s)

theorem rules_foldl_push (rules : List Rule) (r : Reading) :
    (rules.foldl push r).rules = r.rules ++ rules := by
  induction rules generalizing r with
  | nil => exact (List.append_nil _).symm
  | cons s rules ih =>
    rw [List.foldl_cons, ih, push, List.append_assoc]
    rfl

theorem stopped_foldl_push (rules : List Rule) (r : Reading) :
    (rules.foldl push r).stopped = r.stopped := by
  induction rules generalizing r with
  | nil => rfl
  | cons s rules ih => exact ih (r.push s)

theorem quiet_foldl_push (rules : List Rule) (r : Reading) (h : Quiet r.log) :
    Quiet (rules.foldl push r).log := by
  induction rules generalizing r with
  | nil => exact h
  | cons s rules ih => exact ih (r.push s) (quiet_push h)

theorem ofText_written {rules : List Rule} {ls : List String} (h : Written none rules ls)
    (hrules : ∀ s ∈ rules, s.Readable) :
    ofText strict ("\n".intercalate ls) = rules.foldl push ⟨[], [], none⟩ :=
  lines_written h hrules _ 1 rfl

end Reading

/-! ## Both ways -/

/-- The result of reading written rules goes by the rules alone. -/
theorem read_written_eq_ok_iff {strict : Bool} {rules : List Rule} {ls : List String}
    (h : Written none rules ls) (hrules : ∀ s ∈ rules, s.Readable) {a : Analysed} :
    (read strict ("\n".intercalate ls)).result = .ok a ↔
      Grammar.ofRules? rules = some a.grammar ∧ a.analysis = a.grammar.analysis ∧
        (strict → a.grammar.problems = []) := by
  rw [read_eq_ok_iff, Reading.ofText_written h hrules, Reading.rules_foldl_push,
    Reading.stopped_foldl_push, List.nil_append]
  exact and_iff_right rfl

theorem exists_read_written {rules : List Rule} {ls : List String} (hne : rules ≠ [])
    (hrules : ∀ s ∈ rules, s.Readable) (h : Written none rules ls) :
    ∃ g, Grammar.ofRules? rules = some g ∧
      (read false ("\n".intercalate ls)).result = .ok ⟨g, g.analysis⟩ := by
  obtain ⟨g, hg⟩ := Grammar.exists_ofRules? hne
  refine ⟨g, hg, (read_written_eq_ok_iff h hrules).mpr ⟨hg, rfl, fun hstrict => ?_⟩⟩
  cases hstrict

/-- Rules that are made of words and written down, in any layout, are read
without a warning to the grammar of exactly these rules; and whatever grammar
is read from a text is read again from its own rules, in any layout. -/
theorem read_written :
    (∀ (rules : List Rule) (ls : List String), rules ≠ [] → (∀ r ∈ rules, r.Readable) →
      Written none rules ls →
      ∃ a, (read false ("\n".intercalate ls)).result = .ok a ∧
        Quiet (read false ("\n".intercalate ls)).log ∧
        a.analysis = a.grammar.analysis ∧ a.grammar.rules = rules ∧
        rules.head?.map (·.result) = some a.grammar.start ∧
        (∀ x, x ∈ a.grammar.terminals ↔ x ∈ usedSymbols rules ∧ ¬ x.isNonterminal) ∧
        ∀ x, x ∈ a.grammar.nonterminals ↔ x ∈ usedSymbols rules ∧ x.isNonterminal) ∧
    ∀ (strict : Bool) (text : String) (a : Analysed), (read strict text).result = .ok a →
      ∀ ls, Written none a.grammar.rules ls →
        (read strict ("\n".intercalate ls)).result = .ok a := by
  constructor
  · intro rules ls hne hrules hwritten
    obtain ⟨g, hg, hread⟩ := exists_read_written hne hrules hwritten
    refine ⟨⟨g, g.analysis⟩, hread, ?_, rfl, Grammar.parts_of_ofRules? hg⟩
    rw [log_of_read_eq_ok hread, Reading.ofText_written hwritten hrules]
    have hreading := Reading.quiet_foldl_push rules ⟨[], [], none⟩ fun _ he => absurd he List.not_mem_nil
    refine (hreading.append ?_).append (Grammar.quiet_analyse g)
    intro e he
    simp only [List.mem_cons, List.not_mem_nil, or_false] at he
    rcases he with rfl | rfl <;> rfl
  · intro strict text a h ls hwritten
    obtain ⟨-, hg, hanalysis, hproblems⟩ := read_eq_ok_iff.mp h
    have hrules := (Grammar.parts_of_ofRules? hg).1
    refine (read_written_eq_ok_iff hwritten ?_).mpr ⟨hrules ▸ hg, hanalysis, hproblems⟩
    rw [hrules]
    exact Reading.readable_of_mem_ofText

/-- Rules with a bar and a colon as symbols, and an empty body. -/
def barRules : List Rule := [⟨"A", ["|", ":", "B"]⟩, ⟨"A", []⟩, ⟨"B", [":"]⟩]

/-- The rules with the second as an alternative, behind a blank line. -/
theorem read_written_bars :
    barRules ≠ [] ∧ (∀ r ∈ barRules, r.Readable) ∧
      Written none barRules ["A : | : B", "\t", "| ", "B : :"] ∧
      ∃ a, (read false "A : | : B\n\t\n| \nB : :").result = .ok a ∧ a.grammar.rules = barRules ∧
        (read false "A : | : B\nA : \nB : :").result = .ok a := by
  obtain ⟨hread, hagain⟩ := read_written
  have hne : barRules ≠ [] := List.cons_ne_nil _ _
  have hrules : ∀ r ∈ barRules, r.Readable := by decide
  have hwritten : Written none barRules ["A : | : B", "\t", "| ", "B : :"] :=
    .header (.blank (by decide) (@Written.alternative ⟨"A", []⟩ _ _ (.header .done)))
  obtain ⟨a, ha, -, -, he, -⟩ := hread barRules _ hne hrules hwritten
  have hplain : Written none a.grammar.rules ["A : | : B", "A : ", "B : :"] := by
    rw [he]
    exact written_texts none barRules
  exact ⟨hne, hrules, hwritten, a, ha, he, hagain false _ a ha _ hplain⟩

end LRZero
