import Mathlib.Data.List.Basic
import LRZero.Grammar
import LRZero.Item

/-!
# The text of an item determines the item

Items are told apart by their texts.  A text is a row of words with single
spaces between them: the result, a colon, what is before the dot, the dot, and
what is behind it, where nothing counts as one empty word.  When every symbol
is one word, not empty, the words can be read back from the text.  The parts
of the item can be read from the words unless the mark of the dot is itself a
symbol inside the body (`MarkInside`), where it can be taken for the dot; as
the first or the last symbol it stands next to an empty word whenever it could
be.  What is read is the place where the dot cuts the body (`text_eq_iff`), and
that is the dot itself when it is in the body.  Plain symbols, which are words
and not that mark, leave no doubt.
-/

namespace LRZero

/-- A symbol that makes one word of a text, and not the word of the dot. -/
def Symbol.Plain (x : Symbol) : Prop := x ≠ "" ∧ ' ' ∉ x.toList ∧ x ≠ Symbol.dotMark

instance (x : Symbol) : Decidable x.Plain := inferInstanceAs (Decidable (_ ∧ _ ∧ _))

/-- All symbols of the rule are plain. -/
def Rule.Plain (r : Rule) : Prop := r.result.Plain ∧ ∀ x ∈ r.body, x.Plain

instance (r : Rule) : Decidable r.Plain := inferInstanceAs (Decidable (_ ∧ _))

/-- The start symbol and all symbols of the rules are plain. -/
def Grammar.Plain (g : Grammar) : Prop := g.start.Plain ∧ ∀ r ∈ g.rules, r.Plain

instance (g : Grammar) : Decidable g.Plain := inferInstanceAs (Decidable (_ ∧ _))

/-- A symbol that makes one word of a text. -/
def Symbol.Spaceless (x : Symbol) : Prop := x ≠ "" ∧ ' ' ∉ x.toList

/-- All symbols of the rule make one word each. -/
def Rule.Spaceless (r : Rule) : Prop := r.result.Spaceless ∧ ∀ x ∈ r.body, x.Spaceless

/-- The mark of the dot is a symbol of the body, neither the first nor the
last one. -/
def MarkInside (body : List Symbol) : Prop := Symbol.dotMark ∈ body.tail.dropLast

instance (body : List Symbol) : Decidable (MarkInside body) :=
  inferInstanceAs (Decidable (_ ∈ _))

theorem markInside_iff {body : List Symbol} :
    MarkInside body ↔ ∃ α β, α ≠ [] ∧ β ≠ [] ∧ body = α ++ Symbol.dotMark :: β := by
  constructor
  · intro h
    obtain ⟨α, β, hinner⟩ := List.append_of_mem h
    cases body with
    | nil => exact absurd h List.not_mem_nil
    | cons x rest =>
      rw [List.tail_cons] at hinner
      have hrest : rest ≠ [] := by
        rintro rfl
        exact absurd h List.not_mem_nil
      refine ⟨x :: α, β ++ [rest.getLast hrest], List.cons_ne_nil _ _,
        List.append_ne_nil_of_right_ne_nil _ (List.cons_ne_nil _ _), ?_⟩
      have he : rest = α ++ Symbol.dotMark :: (β ++ [rest.getLast hrest]) := by
        rw [← List.cons_append, ← List.append_assoc, ← hinner, List.dropLast_append_getLast hrest]
      exact congrArg (x :: ·) he
  · rintro ⟨α, β, hα, hβ, rfl⟩
    obtain ⟨x, α, rfl⟩ := List.exists_cons_of_ne_nil hα
    have hcons : Symbol.dotMark :: β ≠ [] := List.cons_ne_nil _ _
    rw [MarkInside, List.cons_append, List.tail_cons, List.dropLast_append_of_ne_nil hcons,
      List.dropLast_cons_of_ne_nil hβ]
    exact List.mem_append_right α List.mem_cons_self

theorem markInside_append {α β : List Symbol} (hα : α ≠ []) (hβ : β ≠ []) :
    MarkInside (α ++ Symbol.dotMark :: β) :=
  markInside_iff.mpr ⟨α, β, hα, hβ, rfl⟩

theorem MarkInside.mem {body : List Symbol} (h : MarkInside body) : Symbol.dotMark ∈ body :=
  List.mem_of_mem_tail ((List.dropLast_sublist _).subset h)

namespace Item

/-- All symbols of the item are plain. -/
def Plain (i : Item) : Prop := i.result.Plain ∧ ∀ x ∈ i.body, x.Plain

instance (i : Item) : Decidable i.Plain := inferInstanceAs (Decidable (_ ∧ _))

/-- The dot is at one of the places of the body. -/
def InBody (i : Item) : Prop := 0 ≤ i.dot ∧ i.dot ≤ i.body.length

/-- All symbols of the item make one word each. -/
def Spaceless (i : Item) : Prop := i.result.Spaceless ∧ ∀ x ∈ i.body, x.Spaceless

theorem Plain.spaceless {i : Item} (h : i.Plain) : i.Spaceless :=
  ⟨⟨h.1.1, h.1.2.1⟩, fun x hx => ⟨(h.2 x hx).1, (h.2 x hx).2.1⟩⟩

theorem Plain.not_markInside {i : Item} (h : i.Plain) : ¬ MarkInside i.body :=
  fun hmark => (h.2 _ hmark.mem).2.2 rfl

/-- An item that its text determines. -/
structure Proper (i : Item) : Prop where
  plain : i.Plain
  inBody : i.InBody

/-! ## The words of a text -/

/-- The words that show some symbols: nothing is shown as an empty word. -/
def shown : List Symbol → List String
  | [] => [""]
  | x :: xs => x :: xs

/-- The words of the text. -/
def words (i : Item) : List String :=
  i.result :: ":" :: (shown i.before ++ Symbol.dotMark :: shown i.after)

theorem shown_ne_nil (xs : List Symbol) : shown xs ≠ [] := by
  cases xs with
  | nil => exact List.cons_ne_nil _ _
  | cons x xs => exact List.cons_ne_nil _ _

theorem intercalate_shown (xs : List Symbol) : " ".intercalate (shown xs) = " ".intercalate xs := by
  cases xs with
  | nil => simp [shown]
  | cons x xs => rfl

theorem text_eq_words (i : Item) : i.text = " ".intercalate i.words := by
  have hafter : " ".intercalate (Symbol.dotMark :: shown i.after) =
      Symbol.dotMark ++ " " ++ " ".intercalate i.after := by
    rw [String.intercalate_cons_of_ne_nil (shown_ne_nil _), intercalate_shown]
  have hmiddle : " ".intercalate (shown i.before ++ Symbol.dotMark :: shown i.after) =
      " ".intercalate i.before ++ " " ++ (Symbol.dotMark ++ " " ++ " ".intercalate i.after) := by
    rw [String.intercalate_append_of_ne_nil (shown_ne_nil _) (List.cons_ne_nil _ _),
      intercalate_shown, hafter]
  have hcolon : " : " = " " ++ ":" ++ " " := rfl
  rw [words, String.intercalate_cons_cons,
    String.intercalate_cons_of_ne_nil (List.append_ne_nil_of_left_ne_nil (shown_ne_nil _) _),
    hmiddle, text, hcolon]
  simp only [String.append_assoc]

/-- Words without spaces can be read back from their row. -/
theorem intercalate_space_inj {u v : List String} (hu : u ≠ []) (hv : v ≠ [])
    (hus : ∀ w ∈ u, ' ' ∉ w.toList) (hvs : ∀ w ∈ v, ' ' ∉ w.toList)
    (h : " ".intercalate u = " ".intercalate v) : u = v := by
  have hsplit : ∀ {u : List String}, u ≠ [] → (∀ w ∈ u, ' ' ∉ w.toList) →
      (" ".intercalate u).toList.splitOn ' ' = u.map String.toList := by
    intro u hu hus
    rw [String.toList_intercalate]
    refine List.splitOn_intercalate ' ' ?_ (by simpa using hu)
    intro l hl
    obtain ⟨w, hw, rfl⟩ := List.mem_map.mp hl
    exact hus w hw
  have hmap : u.map String.toList = v.map String.toList := by
    rw [← hsplit hu hus, ← hsplit hv hvs, h]
  exact List.map_injective_iff.mpr (fun _ _ => String.toList_inj.mp) hmap

/-! ## Reading the parts back -/

theorem shown_inj {xs ys : List Symbol} (hx : "" ∉ xs) (hy : "" ∉ ys) (h : shown xs = shown ys) :
    xs = ys := by
  cases xs with
  | nil =>
    cases ys with
    | nil => rfl
    | cons y ys =>
      obtain ⟨rfl, -⟩ := List.cons.inj h
      exact absurd List.mem_cons_self hy
  | cons x xs =>
    cases ys with
    | nil =>
      obtain ⟨rfl, -⟩ := List.cons.inj h
      exact absurd List.mem_cons_self hx
    | cons y ys => exact h

/-- Nothing is shown as a single word. -/
theorem eq_of_shown_eq {xs : List Symbol} {u v : List String} {w : String}
    (h : shown xs = u ++ w :: v) (huv : u ≠ [] ∨ v ≠ []) : xs = u ++ w :: v := by
  cases xs with
  | nil =>
    have hlength := congrArg List.length h
    simp only [shown, List.length_append, List.length_cons, List.length_nil] at hlength
    have hu : u = [] := List.length_eq_zero_iff.mp (by omega)
    have hv : v = [] := List.length_eq_zero_iff.mp (by omega)
    exact absurd hv (huv.resolve_left fun hne => hne hu)
  | cons x xs => exact h

theorem ne_nil_of_not_mem_shown {xs : List Symbol} (h : "" ∉ shown xs) : xs ≠ [] := by
  rintro rfl
  exact h List.mem_cons_self

/-- The dot is found again among the words, unless its mark is a symbol
between others.  If it were taken for another place, that place would hold the
mark, with the words on its far side all symbols of one body. -/
theorem shown_cut_inj {b a b' a' : List Symbol} (h₁ : "" ∉ b ++ a) (h₂ : "" ∉ b' ++ a')
    (hmark : ¬ MarkInside (b ++ a))
    (h : shown b ++ Symbol.dotMark :: shown a = shown b' ++ Symbol.dotMark :: shown a') :
    b = b' ∧ a = a' := by
  rw [List.mem_append, not_or] at h₁ h₂
  rcases List.append_eq_append_iff.mp h with ⟨w, hb, ha⟩ | ⟨w, hb, ha⟩
  · cases w with
    | nil =>
      rw [List.append_nil] at hb
      exact ⟨shown_inj h₁.1 h₂.1 hb.symm, shown_inj h₁.2 h₂.2 (List.cons.inj ha).2⟩
    | cons x t =>
      obtain ⟨rfl, hrest⟩ := List.cons.inj ha
      have hb' := eq_of_shown_eq hb (.inl (shown_ne_nil b))
      have ha' := eq_of_shown_eq hrest (.inr (shown_ne_nil a'))
      have hne : b ≠ [] := ne_nil_of_not_mem_shown fun hmem =>
        h₂.1 (hb' ▸ List.mem_append_left _ hmem)
      rw [ha', ← List.append_assoc] at hmark
      exact absurd (markInside_append (List.append_ne_nil_of_left_ne_nil hne t) (shown_ne_nil a')) hmark
  · cases w with
    | nil =>
      rw [List.append_nil] at hb
      exact ⟨shown_inj h₁.1 h₂.1 hb, shown_inj h₁.2 h₂.2 (List.cons.inj ha).2.symm⟩
    | cons x t =>
      obtain ⟨rfl, hrest⟩ := List.cons.inj ha
      have hb' := eq_of_shown_eq hb (.inl (shown_ne_nil b'))
      have ha' := eq_of_shown_eq hrest (.inr (shown_ne_nil a))
      have hne : a ≠ [] := ne_nil_of_not_mem_shown fun hmem =>
        h₂.2 (ha' ▸ List.mem_append_right _ (List.mem_cons_of_mem _ hmem))
      rw [hb', List.append_assoc, List.cons_append] at hmark
      exact absurd (markInside_append (shown_ne_nil b') (List.append_ne_nil_of_right_ne_nil t hne)) hmark

theorem space_not_mem_shown {xs : List Symbol} (hx : ∀ x ∈ xs, x.Spaceless) :
    ∀ w ∈ shown xs, ' ' ∉ w.toList := by
  cases xs with
  | nil =>
    intro w hw
    rw [List.mem_singleton.mp hw]
    exact List.not_mem_nil
  | cons x xs => exact fun w hw => (hx w hw).2

theorem before_append_after (i : Item) : i.before ++ i.after = i.body :=
  List.take_append_drop _ _

theorem Spaceless.space_not_mem_words {i : Item} (h : i.Spaceless) :
    ∀ w ∈ i.words, ' ' ∉ w.toList := by
  have hbefore : ∀ x ∈ i.before, x.Spaceless := fun x hx => h.2 x (List.mem_of_mem_take hx)
  have hafter : ∀ x ∈ i.after, x.Spaceless := fun x hx => h.2 x (List.mem_of_mem_drop hx)
  intro w hw
  rcases List.mem_cons.mp hw with rfl | hw
  · exact h.1.2
  rcases List.mem_cons.mp hw with rfl | hw
  · decide
  rcases List.mem_append.mp hw with hw | hw
  · exact space_not_mem_shown hbefore w hw
  rcases List.mem_cons.mp hw with rfl | hw
  · decide
  · exact space_not_mem_shown hafter w hw

theorem Spaceless.words_eq {i j : Item} (hi : i.Spaceless) (hj : j.Spaceless)
    (h : i.text = j.text) : i.words = j.words := by
  rw [text_eq_words, text_eq_words] at h
  exact intercalate_space_inj (List.cons_ne_nil _ _) (List.cons_ne_nil _ _)
    hi.space_not_mem_words hj.space_not_mem_words h

theorem Spaceless.empty_not_mem {i : Item} (h : i.Spaceless) : "" ∉ i.before ++ i.after := by
  rw [before_append_after]
  exact fun hmem => (h.2 _ hmem).1 rfl

/-- Items with the same text have the same result and the same symbols on
either side of the dot, when one of them has no mark of the dot inside. -/
theorem parts_eq_of_text_eq {i j : Item} (hi : i.Spaceless) (hj : j.Spaceless)
    (hmark : ¬ MarkInside i.body) (h : i.text = j.text) :
    i.result = j.result ∧ i.before = j.before ∧ i.after = j.after := by
  obtain ⟨hresult, hrest⟩ := List.cons.inj (hi.words_eq hj h)
  rw [← i.before_append_after] at hmark
  exact ⟨hresult,
    shown_cut_inj hi.empty_not_mem hj.empty_not_mem hmark (List.cons.inj hrest).2⟩

theorem cut_le (i : Item) : i.cut ≤ i.body.length := by
  unfold cut
  split <;> omega

theorem length_before (i : Item) : i.before.length = i.cut := by
  rw [before, List.length_take, Nat.min_eq_left i.cut_le]

theorem cut_of_nonneg {i : Item} (h : 0 ≤ i.dot) : i.cut = min i.dot.toNat i.body.length := by
  rw [cut, if_neg (Int.not_lt.mpr h)]

theorem InBody.cut_eq {i : Item} (h : i.InBody) : (i.cut : Int) = i.dot := by
  obtain ⟨h₁, h₂⟩ := h
  rw [cut_of_nonneg h₁]
  omega

/-- A symbol behind the dot keeps the dot from the end. -/
theorem InBody.dot_lt {i : Item} {x : Symbol} (h : i.InBody) (hx : i.next? = some x) :
    i.dot < i.body.length := by
  rw [next?, if_neg (Int.not_lt.mpr h.1)] at hx
  obtain ⟨hlt, -⟩ := List.getElem?_eq_some_iff.mp hx
  have hnonneg := h.1
  omega

theorem text_eq_of_cut_eq {i j : Item} (hresult : i.result = j.result) (hbody : i.body = j.body)
    (hcut : i.cut = j.cut) : i.text = j.text := by
  rw [text, text, before, before, after, after, hresult, hbody, hcut]

/-- What the text of an item tells, where the mark of the dot is not inside its body. -/
theorem text_eq_iff {i j : Item} (hi : i.Spaceless) (hj : j.Spaceless)
    (hmark : ¬ MarkInside i.body) :
    i.text = j.text ↔ i.result = j.result ∧ i.body = j.body ∧ i.cut = j.cut := by
  constructor
  · intro h
    obtain ⟨hresult, hbefore, hafter⟩ := parts_eq_of_text_eq hi hj hmark h
    have hbody : i.body = j.body := by
      rw [← i.before_append_after, ← j.before_append_after, hbefore, hafter]
    have hcut : i.cut = j.cut := by
      rw [← i.length_before, ← j.length_before, hbefore]
    exact ⟨hresult, hbody, hcut⟩
  · rintro ⟨hresult, hbody, hcut⟩
    exact text_eq_of_cut_eq hresult hbody hcut

/-- Items with the dot in the body are equal when their texts are. -/
theorem eq_of_text_eq {i j : Item} (hi : i.Spaceless) (hj : j.Spaceless) (hib : i.InBody)
    (hjb : j.InBody) (hmark : ¬ MarkInside i.body) (h : i.text = j.text) : i = j := by
  obtain ⟨hresult, hbody, hcut⟩ := (text_eq_iff hi hj hmark).mp h
  have hdot : i.dot = j.dot := by
    rw [← hib.cut_eq, ← hjb.cut_eq, hcut]
  cases i
  cases j
  cases hresult
  cases hbody
  cases hdot
  rfl

theorem before_ofRule (r : Rule) : (ofRule r).before = [] := by
  simp [before, cut, ofRule, ofRuleAt]

theorem after_ofRule (r : Rule) : (ofRule r).after = r.body := by
  simp [after, cut, ofRule, ofRuleAt]

/-- With the dot before the body the text tells the rule, whatever its symbols are. -/
theorem text_ofRule_inj {r s : Rule} (hr : r.Spaceless) (hs : s.Spaceless)
    (h : (ofRule r).text = (ofRule s).text) : r = s := by
  have hwords : (ofRule r).words = (ofRule s).words := Spaceless.words_eq hr hs h
  rw [words, words, before_ofRule, before_ofRule, after_ofRule, after_ofRule] at hwords
  obtain ⟨hresult, hwords⟩ := List.cons.inj hwords
  have hshown : shown r.body = shown s.body :=
    @List.append_cancel_left _ [":", "", Symbol.dotMark] _ _ hwords
  have hbody : r.body = s.body :=
    shown_inj (fun hmem => (hr.2 _ hmem).1 rfl) (fun hmem => (hs.2 _ hmem).1 rfl) hshown
  cases r
  cases s
  cases hresult
  cases hbody
  rfl

/-- Proper items are equal when their texts are. -/
theorem Proper.eq_of_text_eq {i j : Item} (hi : i.Proper) (hj : j.Proper) (h : i.text = j.text) :
    i = j :=
  Item.eq_of_text_eq hi.plain.spaceless hj.plain.spaceless hi.inBody hj.inBody
    hi.plain.not_markInside h

theorem inBody_ofRuleAt {r : Rule} {n : Nat} (hn : n ≤ r.body.length) : (ofRuleAt r n).InBody :=
  ⟨Int.natCast_nonneg n, Int.ofNat_le.mpr hn⟩

theorem shown_of_ne_nil {xs : List Symbol} (h : xs ≠ []) : shown xs = xs := by
  cases xs with
  | nil => exact absurd rfl h
  | cons x xs => rfl

theorem words_ofRuleAt (A : Symbol) (α β : List Symbol) :
    (ofRuleAt ⟨A, α ++ β⟩ α.length).words = A :: ":" :: (shown α ++ Symbol.dotMark :: shown β) := by
  have hcut : (ofRuleAt ⟨A, α ++ β⟩ α.length).cut = α.length := by
    have hn : α.length ≤ (α ++ β).length := by simp
    exact Int.ofNat_inj.mp (inBody_ofRuleAt hn).cut_eq
  rw [words, before, after, hcut]
  simp [ofRuleAt]

/-- Before a mark inside the body and behind it the dot gives the same text. -/
theorem text_ofRuleAt_mark {A : Symbol} {α β : List Symbol} (hα : α ≠ []) (hβ : β ≠ []) :
    (ofRuleAt ⟨A, α ++ Symbol.dotMark :: β⟩ α.length).text =
      (ofRuleAt ⟨A, α ++ Symbol.dotMark :: β⟩ (α.length + 1 : Nat)).text := by
  have hbefore := words_ofRuleAt A α (Symbol.dotMark :: β)
  have hbehind := words_ofRuleAt A (α ++ [Symbol.dotMark]) β
  rw [List.append_assoc, List.length_append] at hbehind
  rw [text_eq_words, text_eq_words, hbefore]
  refine congrArg _ (Eq.trans ?_ hbehind.symm)
  rw [shown_of_ne_nil hα, shown_of_ne_nil hβ, shown_of_ne_nil (List.cons_ne_nil _ _),
    shown_of_ne_nil (List.append_ne_nil_of_left_ne_nil hα _), List.append_assoc]
  rfl

/-- The places of the dot in a rule have different texts exactly if no mark of
the dot is inside the body. -/
theorem text_ofRuleAt_inj_iff {r : Rule} (hr : r.Spaceless) :
    (∀ m ≤ r.body.length, ∀ n ≤ r.body.length,
      (ofRuleAt r m).text = (ofRuleAt r n).text → m = n) ↔ ¬ MarkInside r.body := by
  constructor
  · intro hinj hmark
    obtain ⟨A, body⟩ := r
    obtain ⟨α, β, hα, hβ, rfl⟩ := markInside_iff.mp hmark
    have hlt : α.length < (α ++ Symbol.dotMark :: β).length := by simp
    have he := hinj _ (Nat.le_of_lt hlt) _ hlt (text_ofRuleAt_mark hα hβ)
    exact absurd he (Nat.ne_of_lt (Nat.lt_succ_self _))
  · intro hmark m hm n hn h
    have hitem : ofRuleAt r m = ofRuleAt r n :=
      Item.eq_of_text_eq hr hr (inBody_ofRuleAt hm) (inBody_ofRuleAt hn) hmark h
    exact Int.ofNat_inj.mp (congrArg Item.dot hitem)

theorem proper_ofRuleAt {r : Rule} (hr : r.Plain) {n : Nat} (hn : n ≤ r.body.length) :
    (ofRuleAt r n).Proper :=
  ⟨hr, inBody_ofRuleAt hn⟩

theorem proper_ofRule {r : Rule} (hr : r.Plain) : (ofRule r).Proper :=
  proper_ofRuleAt hr (Nat.zero_le _)

/-- A proper item stays proper when the dot moves over a symbol. -/
theorem Proper.advanced {i : Item} {x : Symbol} (h : i.Proper) (hx : i.next? = some x) :
    i.advanced.Proper := by
  have hlt := h.inBody.dot_lt hx
  obtain ⟨hplain, h₁, h₂⟩ := h
  refine ⟨hplain, ?_, ?_⟩
  · show 0 ≤ i.dot + 1
    omega
  · show i.dot + 1 ≤ i.body.length
    omega

end Item

end LRZero
