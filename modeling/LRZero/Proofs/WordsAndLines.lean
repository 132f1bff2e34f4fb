import LRZero.Text.Words

/-!
# Words and lines put together

What a text made of words, or of lines, is cut into again.  Words with single
spaces between them are found again as they are (`words_intercalate`).  A line
with a line feed behind it is the first line of the text (`lines_intercalate`);
so lines that are not empty are found again as well (`lines_intercalate_all`),
and white space with a line feed behind it, whatever line ends it holds, makes
lines of white space (`lines_intercalate_blank`).  All this rests on line ends
being white space: a word cannot hold the end of a line.
-/

namespace LRZero.Text

/-- A text that makes one word. -/
def IsWord (w : String) : Prop := w ≠ "" ∧ ∀ c ∈ w.toList, ¬ isBlank c

instance (w : String) : Decidable (IsWord w) :=
  @instDecidableAnd _ _ _ (List.decidableBAll (fun c => ¬ isBlank c) w.toList)

/-- A text of white space only. -/
def Blank (s : String) : Prop := ∀ c ∈ s.toList, isBlank c

instance (s : String) : Decidable (Blank s) := List.decidableBAll (fun c => isBlank c) s.toList

/-- A text without line ends. -/
def OneLine (s : String) : Prop := ∀ c ∈ s.toList, ¬ isLineEnd c

instance (s : String) : Decidable (OneLine s) :=
  List.decidableBAll (fun c => ¬ isLineEnd c) s.toList

theorem toList_ne_nil {s : String} (h : s ≠ "") : s.toList ≠ [] :=
  fun he => h (String.toList_eq_nil_iff.mp he)

/-! ## Words -/

theorem wordsFrom_append_blank {c : Char} (hc : isBlank c) (v : List Char) :
    ∀ (u word : List Char), wordsFrom word (u ++ c :: v) = wordsFrom word u ++ wordsFrom [] v
  | [], word => by
    rw [List.nil_append, wordsFrom, wordsFrom, if_pos hc]
    split <;> rfl
  | d :: u, word => by
    rw [List.cons_append, wordsFrom, wordsFrom]
    split
    · split
      · exact wordsFrom_append_blank hc v u []
      · rw [wordsFrom_append_blank hc v u [], List.cons_append]
    · exact wordsFrom_append_blank hc v u (d :: word)

theorem wordsFrom_of_not_blank :
    ∀ {u : List Char} (word : List Char), (∀ c ∈ u, ¬ isBlank c) →
      wordsFrom word u = wordsFrom (u.reverse ++ word) []
  | [], _, _ => rfl
  | c :: u, word, h => by
    have ih := wordsFrom_of_not_blank (c :: word) fun d hd => h d (List.mem_cons_of_mem _ hd)
    rw [wordsFrom.eq_2, if_neg (h c List.mem_cons_self), ih, List.reverse_cons, List.append_assoc]
    rfl

theorem not_blank_of_mem_wordsFrom (word cs : List Char) (h : ∀ c ∈ word, ¬ isBlank c) :
    ∀ w ∈ wordsFrom word cs, w ≠ [] ∧ ∀ c ∈ w, ¬ isBlank c := by
  have hdone : ∀ {word : List Char}, word ≠ [] → (∀ c ∈ word, ¬ isBlank c) →
      word.reverse ≠ [] ∧ ∀ c ∈ word.reverse, ¬ isBlank c :=
    fun hne hw => ⟨fun he => hne (List.reverse_eq_nil_iff.mp he),
      fun c hc => hw c (List.mem_reverse.mp hc)⟩
  fun_induction wordsFrom word cs with
  | case1 => exact fun w hw => absurd hw List.not_mem_nil
  | case2 word hne =>
    intro w hw
    rw [List.mem_singleton.mp hw]
    exact hdone hne h
  | case3 c rest _ ih => exact ih h
  | case4 word c rest _ hne ih =>
    intro w hw
    rcases List.mem_cons.mp hw with rfl | hw
    · exact hdone hne h
    · exact ih (fun _ hc => absurd hc List.not_mem_nil) w hw
  | case5 word c rest hc ih =>
    apply ih
    intro d hd
    rcases List.mem_cons.mp hd with rfl | hd
    · exact hc
    · exact h d hd

/-- The words of a text are words. -/
theorem isWord_of_mem_words {s w : String} (h : w ∈ words s) : IsWord w := by
  obtain ⟨cs, hcs, rfl⟩ := List.mem_map.mp h
  obtain ⟨hne, hblank⟩ :=
    not_blank_of_mem_wordsFrom [] s.toList (fun _ hc => absurd hc List.not_mem_nil) cs hcs
  refine ⟨fun he => hne ?_, ?_⟩
  · rw [← String.toList_ofList (l := cs), he]
    rfl
  · rwa [String.toList_ofList]

theorem words_append_space (s t : String) : words (s ++ " " ++ t) = words s ++ words t := by
  have hspace : (s ++ " " ++ t).toList = s.toList ++ ' ' :: t.toList := by
    rw [String.toList_append, String.toList_append, List.append_assoc]
    rfl
  rw [words, hspace, wordsFrom_append_blank rfl, List.map_append]
  rfl

theorem words_of_isWord {w : String} (h : IsWord w) : words w = [w] := by
  have hne : w.toList.reverse ++ [] ≠ [] := by
    rw [List.append_nil]
    exact fun he => toList_ne_nil h.1 (List.reverse_eq_nil_iff.mp he)
  rw [words, wordsFrom_of_not_blank [] h.2, wordsFrom, if_neg hne, List.append_nil,
    List.reverse_reverse, List.map_singleton, String.ofList_toList]

/-- Words with single spaces between them are found again. -/
theorem words_intercalate : ∀ {ws : List String}, (∀ w ∈ ws, IsWord w) →
    words (" ".intercalate ws) = ws
  | [], _ => rfl
  | [w], h => by
    rw [String.intercalate_singleton]
    exact words_of_isWord (h w List.mem_cons_self)
  | w :: w' :: ws, h => by
    rw [String.intercalate_cons_cons, words_append_space,
      words_of_isWord (h w List.mem_cons_self),
      words_intercalate fun v hv => h v (List.mem_cons_of_mem _ hv)]
    rfl

theorem wordsFrom_of_blank : ∀ {u : List Char}, (∀ c ∈ u, isBlank c) → wordsFrom [] u = []
  | [], _ => rfl
  | c :: u, h => by
    rw [wordsFrom, if_pos (h c List.mem_cons_self), if_pos rfl]
    exact wordsFrom_of_blank fun d hd => h d (List.mem_cons_of_mem _ hd)

theorem words_of_blank {s : String} (h : Blank s) : words s = [] := by
  rw [words, wordsFrom_of_blank h]
  rfl

/-! ## Texts without line ends -/

theorem IsWord.oneLine {w : String} (h : IsWord w) : OneLine w :=
  fun c hc hend => h.2 c hc (isBlank_of_isLineEnd hend)

theorem OneLine.append {s t : String} (hs : OneLine s) (ht : OneLine t) : OneLine (s ++ t) := by
  intro c hc
  rw [String.toList_append] at hc
  rcases List.mem_append.mp hc with hc | hc
  · exact hs c hc
  · exact ht c hc

theorem OneLine.intercalate {sep : String} (hsep : OneLine sep) : ∀ {ws : List String},
    (∀ w ∈ ws, OneLine w) → OneLine (sep.intercalate ws)
  | [], _ => fun _ hc => absurd hc List.not_mem_nil
  | [w], h => by
    rw [String.intercalate_singleton]
    exact h w List.mem_cons_self
  | w :: w' :: ws, h => by
    rw [String.intercalate_cons_cons]
    exact ((h w List.mem_cons_self).append hsep).append
      (OneLine.intercalate hsep fun v hv => h v (List.mem_cons_of_mem _ hv))

theorem oneLine_intercalate {ws : List String} (h : ∀ w ∈ ws, IsWord w) :
    OneLine (" ".intercalate ws) :=
  OneLine.intercalate (by decide) fun w hw => (h w hw).oneLine

/-! ## Lines -/

theorem ne_return_of_not_isLineEnd {c : Char} (h : ¬ isLineEnd c) : c ≠ '\r' := by
  rintro rfl
  exact h rfl

theorem linesFrom_cons {line rest : List Char} {c : Char} (h : ¬ isLineEnd c) :
    linesFrom line (c :: rest) = linesFrom (c :: line) rest := by
  rw [linesFrom.eq_3 _ _ _ fun _ hc _ => ne_return_of_not_isLineEnd h hc, if_neg h]

theorem linesFrom_newline (line v : List Char) :
    linesFrom line ('\n' :: v) = line.reverse :: linesFrom [] v := by
  rw [linesFrom.eq_3 _ _ _ fun _ hc _ => absurd hc (by decide), if_pos (by decide)]

theorem linesFrom_append : ∀ {u : List Char} (line v : List Char), (∀ c ∈ u, ¬ isLineEnd c) →
    linesFrom line (u ++ v) = linesFrom (u.reverse ++ line) v
  | [], _, _, _ => rfl
  | c :: u, line, v, h => by
    rw [List.cons_append, linesFrom_cons (h c List.mem_cons_self),
      linesFrom_append (c :: line) v fun d hd => h d (List.mem_cons_of_mem _ hd),
      List.reverse_cons, List.append_assoc]
    rfl

/-- A line feed ends a line, whatever stands before it; a carriage return right
before it belongs to it. -/
theorem linesFrom_append_newline (line u v : List Char) :
    linesFrom line (u ++ '\n' :: v) = linesFrom line (u ++ ['\n']) ++ linesFrom [] v := by
  fun_induction linesFrom line u with
  | case1 => exact linesFrom_newline [] v
  | case2 line _ =>
    rw [List.nil_append, List.nil_append, linesFrom_newline, linesFrom_newline]
    rfl
  | case3 line rest ih =>
    rw [List.cons_append, List.cons_append, linesFrom.eq_2, ih, List.cons_append, List.cons_append,
      linesFrom.eq_2, List.cons_append]
  | case4 line c rest hpair hend ih =>
    by_cases hreturn : c = '\r' ∧ rest = []
    · obtain ⟨rfl, rfl⟩ := hreturn
      exact linesFrom.eq_2 line v
    · have hpair' : ∀ v w, c = '\r' → rest ++ '\n' :: v = '\n' :: w → False := by
        intro v w hc he
        cases rest with
        | nil => exact hreturn ⟨hc, rfl⟩
        | cons d rest =>
          obtain ⟨rfl, -⟩ := List.cons.inj he
          exact hpair rest hc rfl
      rw [List.cons_append, List.cons_append, linesFrom.eq_3 _ _ _ (hpair' v),
        linesFrom.eq_3 _ _ _ (hpair' []), if_pos hend, if_pos hend, ih, List.cons_append]
  | case5 line c rest _ hend ih =>
    rw [List.cons_append, List.cons_append, linesFrom_cons hend, linesFrom_cons hend, ih]

theorem lines_append_newline (s t : String) :
    lines (s ++ "\n" ++ t) = lines (s ++ "\n") ++ lines t := by
  have htext : (s ++ "\n" ++ t).toList = s.toList ++ '\n' :: t.toList := by
    rw [String.toList_append, String.toList_append, List.append_assoc]
    rfl
  rw [lines, htext, linesFrom_append_newline, List.map_append, lines, String.toList_append]
  rfl

theorem linesFrom_of_oneLine {u : List Char} (h : ∀ c ∈ u, ¬ isLineEnd c) (v : List Char) :
    linesFrom [] (u ++ '\n' :: v) = u :: linesFrom [] v := by
  rw [linesFrom_append [] _ h, linesFrom_newline, List.append_nil, List.reverse_reverse]

theorem lines_of_oneLine {l : String} (h : OneLine l) (hne : l ≠ "") : lines l = [l] := by
  have hrev : l.toList.reverse ≠ [] := fun he => toList_ne_nil hne (List.reverse_eq_nil_iff.mp he)
  have hlines : linesFrom [] l.toList = [l.toList] := by
    rw [← List.append_nil l.toList, linesFrom_append [] [] h, List.append_nil, List.append_nil,
      linesFrom, if_neg hrev, List.reverse_reverse]
  rw [lines, hlines, List.map_singleton, String.ofList_toList]

theorem lines_newline {l : String} (h : OneLine l) : lines (l ++ "\n") = [l] := by
  rw [lines, String.toList_append]
  show (linesFrom [] (l.toList ++ ['\n'])).map String.ofList = [l]
  rw [linesFrom_of_oneLine h, List.map_cons, String.ofList_toList]
  rfl

/-- The first line of a text, when the lines are joined by line feeds. -/
theorem lines_intercalate {l : String} (h : OneLine l) (hne : l ≠ "") (ls : List String) :
    lines ("\n".intercalate (l :: ls)) = l :: lines ("\n".intercalate ls) := by
  cases ls with
  | nil =>
    rw [String.intercalate_singleton]
    exact lines_of_oneLine h hne
  | cons l' ls =>
    rw [String.intercalate_cons_cons, lines_append_newline, lines_newline h]
    rfl

/-- A line holds no line end. -/
theorem not_isLineEnd_of_mem_linesFrom (line cs : List Char) (h : ∀ c ∈ line, ¬ isLineEnd c) :
    ∀ l ∈ linesFrom line cs, ∀ c ∈ l, ¬ isLineEnd c := by
  have hdone : ∀ {line : List Char}, (∀ c ∈ line, ¬ isLineEnd c) → ∀ c ∈ line.reverse, ¬ isLineEnd c :=
    fun h c hc => h c (List.mem_reverse.mp hc)
  have hnil : ∀ c ∈ ([] : List Char), ¬ isLineEnd c := fun _ hc => absurd hc List.not_mem_nil
  fun_induction linesFrom line cs with
  | case1 => exact fun l hl => absurd hl List.not_mem_nil
  | case2 line _ =>
    intro l hl
    rw [List.mem_singleton.mp hl]
    exact hdone h
  | case3 line rest ih =>
    intro l hl
    rcases List.mem_cons.mp hl with rfl | hl
    · exact hdone h
    · exact ih hnil l hl
  | case4 line d rest _ _ ih =>
    intro l hl
    rcases List.mem_cons.mp hl with rfl | hl
    · exact hdone h
    · exact ih hnil l hl
  | case5 line d rest _ hend ih =>
    apply ih
    intro c hc
    rcases List.mem_cons.mp hc with rfl | hc
    · exact hend
    · exact h c hc

theorem oneLine_of_mem_lines {s l : String} (h : l ∈ lines s) : OneLine l := by
  obtain ⟨cs, hcs, rfl⟩ := List.mem_map.mp h
  intro c hc
  rw [String.toList_ofList] at hc
  exact not_isLineEnd_of_mem_linesFrom [] s.toList (fun _ hc => absurd hc List.not_mem_nil) cs hcs c hc

/-- Lines that are not empty are found again when they are joined by line feeds. -/
theorem lines_intercalate_all : ∀ {ls : List String}, (∀ l ∈ ls, OneLine l ∧ l ≠ "") →
    lines ("\n".intercalate ls) = ls
  | [], _ => rfl
  | l :: ls, h => by
    obtain ⟨hone, hne⟩ := h l List.mem_cons_self
    rw [lines_intercalate hone hne,
      lines_intercalate_all fun m hm => h m (List.mem_cons_of_mem _ hm)]

/-! ## Lines of white space -/

/-- A line holds only characters of the text. -/
theorem mem_of_mem_linesFrom (line cs : List Char) :
    ∀ l ∈ linesFrom line cs, ∀ c ∈ l, c ∈ line ∨ c ∈ cs := by
  have hdone : ∀ {line cs : List Char}, ∀ c ∈ line.reverse, c ∈ line ∨ c ∈ cs :=
    fun c hc => .inl (List.mem_reverse.mp hc)
  fun_induction linesFrom line cs with
  | case1 => exact fun l hl => absurd hl List.not_mem_nil
  | case2 line _ =>
    intro l hl
    rw [List.mem_singleton.mp hl]
    exact hdone
  | case3 line rest ih =>
    intro l hl c hc
    rcases List.mem_cons.mp hl with rfl | hl
    · exact hdone c hc
    · have hrest := (ih l hl c hc).resolve_left List.not_mem_nil
      exact .inr (List.mem_cons_of_mem _ (List.mem_cons_of_mem _ hrest))
  | case4 line d rest _ _ ih =>
    intro l hl c hc
    rcases List.mem_cons.mp hl with rfl | hl
    · exact hdone c hc
    · exact .inr (List.mem_cons_of_mem _ ((ih l hl c hc).resolve_left List.not_mem_nil))
  | case5 line d rest _ _ ih =>
    intro l hl c hc
    rcases ih l hl c hc with h | h
    · rcases List.mem_cons.mp h with rfl | h
      · exact .inr List.mem_cons_self
      · exact .inl h
    · exact .inr (List.mem_cons_of_mem _ h)

theorem blank_of_mem_lines {s l : String} (h : Blank s) (hl : l ∈ lines s) : Blank l := by
  obtain ⟨cs, hcs, rfl⟩ := List.mem_map.mp hl
  intro c hc
  rw [String.toList_ofList] at hc
  exact h c ((mem_of_mem_linesFrom [] s.toList cs hcs c hc).resolve_left List.not_mem_nil)

/-- White space at the start of a text makes lines of white space. -/
theorem lines_intercalate_blank {l : String} (h : Blank l) (ls : List String) :
    ∃ bs, (∀ b ∈ bs, Blank b) ∧
      lines ("\n".intercalate (l :: ls)) = bs ++ lines ("\n".intercalate ls) := by
  cases ls with
  | nil =>
    rw [String.intercalate_singleton]
    exact ⟨lines l, fun b hb => blank_of_mem_lines h hb, (List.append_nil _).symm⟩
  | cons l' ls =>
    have hblank : Blank (l ++ "\n") := by
      intro c hc
      rw [String.toList_append] at hc
      rcases List.mem_append.mp hc with hc | hc
      · exact h c hc
      · rw [List.mem_singleton.mp hc]
        decide
    rw [String.intercalate_cons_cons, lines_append_newline]
    exact ⟨lines (l ++ "\n"), fun b hb => blank_of_mem_lines hblank hb, rfl⟩

end LRZero.Text
