import LRZero.Follow
import LRZero.Proofs.FirstSets

/-!
# FOLLOW sets are what derivations put behind a non-terminal

`Follows` says which symbols come to stand behind a non-terminal, by the
places of rule bodies alone, and `mem_follow` that the FOLLOW sets hold
exactly these.

Against derivations: where all results can be reached from the start symbol,
every place of a body occurs in a sentential form, so what the sets hold is
seen behind the non-terminal in some form.  Conversely two neighbours in a
form may stem from different rules, far apart in the derivation.  What is kept
from form to form is `Followed`: each non-terminal of the form is followed by
all that the rest of the form begins with.
-/

namespace LRZero.Grammar

variable {g : Grammar} {a : Option Symbol}

/-! ## The inclusions of a body -/

/-- Each non-terminal of a body gets what its neighbour begins with, the last
one what its result gets. -/
theorem mem_followsIn {first : SetTable} {n x : Symbol} {s : Source} :
    ∀ {body : List Symbol}, ⟨x, s⟩ ∈ followsIn first n body ↔
      x.isNonterminal ∧
        ((∃ α y β, body = α ++ x :: y :: β ∧ s = .given (first.firstOfSymbol (some y))) ∨
          ∃ α, body = α ++ [x] ∧ s = .key n)
  | [] => by simp [followsIn]
  | [z] => by
    constructor
    · intro h
      rw [followsIn] at h
      split at h
      · next hz =>
        cases List.mem_singleton.mp h
        exact ⟨hz, .inr ⟨[], rfl, rfl⟩⟩
      · exact absurd h List.not_mem_nil
    · rintro ⟨hx, ⟨α, y, β, h, -⟩ | ⟨α, h, hs⟩⟩
      · cases α with
        | nil => cases h
        | cons w α => exact absurd (List.cons.inj h).2 (by simp)
      · cases α with
        | nil =>
          cases h
          rw [followsIn, if_pos hx, hs]
          exact List.mem_singleton.mpr rfl
        | cons w α => exact absurd (List.cons.inj h).2 (by simp)
  | z :: y :: rest => by
    have ih : ⟨x, s⟩ ∈ followsIn first n (y :: rest) ↔ _ := mem_followsIn
    rw [followsIn, List.mem_append, ih]
    constructor
    · rintro (h | ⟨hx, ⟨α, y', β, h, hs⟩ | ⟨α, h, hs⟩⟩)
      · split at h
        · next hz =>
          cases List.mem_singleton.mp h
          exact ⟨hz, .inl ⟨[], y, rest, rfl, rfl⟩⟩
        · exact absurd h List.not_mem_nil
      · exact ⟨hx, .inl ⟨z :: α, y', β, congrArg (z :: ·) h, hs⟩⟩
      · exact ⟨hx, .inr ⟨z :: α, congrArg (z :: ·) h, hs⟩⟩
    · rintro ⟨hx, ⟨α, y', β, h, hs⟩ | ⟨α, h, hs⟩⟩
      · cases α with
        | nil =>
          cases h
          rw [if_pos hx, hs]
          exact .inl (List.mem_singleton.mpr rfl)
        | cons z' α => exact .inr ⟨hx, .inl ⟨α, y', β, (List.cons.inj h).2, hs⟩⟩
      · cases α with
        | nil => cases h
        | cons z' α => exact .inr ⟨hx, .inr ⟨α, (List.cons.inj h).2, hs⟩⟩

theorem mem_followSystem {first : SetTable} {x : Symbol} {s : Source} :
    ⟨x, s⟩ ∈ g.followSystem first ↔ ∃ r ∈ g.rules, x.isNonterminal ∧
      ((∃ α y β, r.body = α ++ x :: y :: β ∧ s = .given (first.firstOfSymbol (some y))) ∨
        ∃ α, r.body = α ++ [x] ∧ s = .key r.result) := by
  simp only [followSystem, List.mem_flatMap, mem_followsIn]

/-! ## The keys -/

theorem mem_keys_followKeys {x : Symbol} :
    x ∈ g.followKeys.keys ↔ (∃ r ∈ g.rules, r.result = x) ∨ x ∈ g.nonterminals ∨
      (x.isNonterminal ∧ ∃ r ∈ g.rules, x ∈ r.body) ∨ x = g.start := by
  rw [followKeys, SetTable.keys_absorb, SetTable.mem_keys_ofKeys]
  simp only [List.mem_append, List.mem_map, List.mem_filter, List.mem_flatMap, List.mem_singleton,
    SortedSet.mem_toList, or_assoc, and_comm]

theorem mem_keys_follow {x : Symbol} :
    x ∈ g.follow.keys ↔ (∃ r ∈ g.rules, r.result = x) ∨ x ∈ g.nonterminals ∨
      (x.isNonterminal ∧ ∃ r ∈ g.rules, x ∈ r.body) ∨ x = g.start := by
  rw [follow, Inclusion.keys_solution, mem_keys_followKeys]

theorem mem_get_followKeys {x : Symbol} :
    a ∈ g.followKeys.get x ↔ x = g.start ∧ a = some Symbol.endMark := by
  rw [followKeys, SetTable.mem_get_absorb, SetTable.get_ofKeys, SortedSet.mem_singleton]
  constructor
  · rintro (h | ⟨hx, -, ha⟩)
    · exact absurd h (SortedSet.not_mem_empty a)
    · exact ⟨hx, ha⟩
  · rintro ⟨rfl, ha⟩
    exact .inr ⟨rfl, by simp, ha⟩

/-! ## What comes to stand behind a non-terminal -/

/-- `Follows g a x`: going by the places of rule bodies, `a` comes to stand
behind `x`. -/
inductive Follows (g : Grammar) (a : Option Symbol) : Symbol → Prop
  | start : a = some Symbol.endMark → Follows g a g.start
  | next {r : Rule} {x y : Symbol} {α β : List Symbol} : r ∈ g.rules → r.body = α ++ x :: y :: β →
      x.isNonterminal → a ∈ g.first.firstOfSymbol (some y) → Follows g a x
  | last {r : Rule} {x : Symbol} {α : List Symbol} : r ∈ g.rules → r.body = α ++ [x] →
      x.isNonterminal → Follows g a r.result → Follows g a x

theorem follows_of_owed {x : Symbol}
    (h : Inclusion.Owed (g.followSystem g.first) g.followKeys a x) : g.Follows a x := by
  induction h with
  | held hmem =>
    obtain ⟨rfl, ha⟩ := mem_get_followKeys.mp hmem
    exact .start ha
  | given hi _ ha =>
    obtain ⟨r, hr, hx, ⟨α, y, β, hbody, hs⟩ | ⟨α, hbody, hs⟩⟩ := mem_followSystem.mp hi
    · cases hs
      exact .next hr hbody hx ha
    · cases hs
  | handed hi _ _ ih =>
    obtain ⟨r, hr, hx, ⟨α, y, β, hbody, hs⟩ | ⟨α, hbody, hs⟩⟩ := mem_followSystem.mp hi
    · cases hs
    · cases hs
      exact .last hr hbody hx ih

theorem mem_followKeys_of_body {r : Rule} {x : Symbol} {α β : List Symbol} (hr : r ∈ g.rules)
    (hbody : r.body = α ++ x :: β) (hx : x.isNonterminal) : x ∈ g.followKeys.keys := by
  refine mem_keys_followKeys.mpr (.inr (.inr (.inl ⟨hx, r, hr, ?_⟩)))
  rw [hbody]
  exact List.mem_append_right α List.mem_cons_self

theorem Follows.owed {x : Symbol} (h : g.Follows a x) :
    Inclusion.Owed (g.followSystem g.first) g.followKeys a x := by
  induction h with
  | start ha => exact .held (mem_get_followKeys.mpr ⟨rfl, ha⟩)
  | next hr hbody hx ha =>
    refine .given ?_ (mem_followKeys_of_body hr hbody hx) ha
    exact mem_followSystem.mpr ⟨_, hr, hx, .inl ⟨_, _, _, hbody, rfl⟩⟩
  | last hr hbody hx _ ih =>
    refine .handed ?_ (mem_followKeys_of_body hr hbody hx) ih
    exact mem_followSystem.mpr ⟨_, hr, hx, .inr ⟨_, hbody, rfl⟩⟩

/-- The FOLLOW sets hold exactly what comes to stand behind a non-terminal. -/
theorem mem_follow {x : Symbol} : a ∈ g.follow.get x ↔ g.Follows a x :=
  Inclusion.mem_solution.trans ⟨follows_of_owed, Follows.owed⟩

/-! ## Forms in which every non-terminal is followed -/

/-- What the rest of a form begins with, when `last` stands behind the form. -/
def behind (g : Grammar) (last : SymbolSet) : List Symbol → SymbolSet
  | [] => last
  | y :: _ => g.first.firstOfSymbol (some y)

/-- Every non-terminal of the form is followed by what stands behind it. -/
def Followed (g : Grammar) (last : SymbolSet) : List Symbol → Prop
  | [] => True
  | x :: rest =>
    (x.isNonterminal → ∀ a, a ∈ g.behind last rest → g.Follows a x) ∧ g.Followed last rest

variable {last last' : SymbolSet}

theorem behind_append (u v : List Symbol) :
    g.behind last (u ++ v) = g.behind (g.behind last v) u := by
  cases u with
  | nil => rfl
  | cons x u => rfl

theorem behind_mono (h : last' ⊆ last) (u : List Symbol) : g.behind last' u ⊆ g.behind last u := by
  cases u with
  | nil => exact h
  | cons x u => exact fun _ ha => ha

theorem followed_append {u v : List Symbol} :
    g.Followed last (u ++ v) ↔ g.Followed (g.behind last v) u ∧ g.Followed last v := by
  induction u with
  | nil => exact ⟨fun h => ⟨trivial, h⟩, fun h => h.2⟩
  | cons x u ih =>
    rw [List.cons_append, Followed, Followed, ih, behind_append, and_assoc]

theorem Followed.mono (h : last' ⊆ last) : ∀ {u : List Symbol}, g.Followed last u →
    g.Followed last' u
  | [], _ => trivial
  | _ :: u, hu => ⟨fun hx a ha => hu.1 hx a (behind_mono h u a ha), hu.2.mono h⟩

/-- A body is followed where what stands behind it follows its result. -/
theorem followed_body {r : Rule} (hr : r ∈ g.rules) (hlast : ∀ a, a ∈ last → g.Follows a r.result) :
    ∀ w γ : List Symbol, r.body = γ ++ w → g.Followed last w
  | [], _, _ => trivial
  | [_], _, h => ⟨fun hx a ha => .last hr h hx (hlast a ha), trivial⟩
  | x :: y :: w, γ, h =>
    ⟨fun hx _ ha => .next hr h hx ha,
      followed_body hr hlast (y :: w) (γ ++ [x]) (by rw [h, List.append_assoc]; rfl)⟩

/-- Rewriting keeps a form followed, unless the body is empty: the neighbours
of the non-terminal get the ends of the body for it. -/
theorem Followed.rewrite {r : Rule} {α β : List Symbol} (hr : r ∈ g.rules)
    (hn : r.result.isNonterminal) (hbody : r.body ≠ [])
    (h : g.Followed last (α ++ r.result :: β)) : g.Followed last (α ++ (r.body ++ β)) := by
  obtain ⟨hα, hresult, hβ⟩ := followed_append.mp h
  -- the body begins with no more than the non-terminal it replaces
  have hleft : g.behind last (r.body ++ β) ⊆ g.behind last (r.result :: β) := by
    intro a ha
    obtain ⟨y, rest, hy⟩ := List.exists_cons_of_ne_nil hbody
    rw [hy] at ha
    exact mem_firstOfSymbol.mpr (.inl ⟨hn, leads_of_head hr hy ha⟩)
  exact followed_append.mpr ⟨hα.mono hleft,
    followed_append.mpr ⟨followed_body hr (hresult hn) r.body [] rfl, hβ⟩⟩

/-- Without empty bodies every form derived from the start symbol is followed,
by the end of the input at its end. -/
theorem followed_of_derives (hfull : ∀ r ∈ g.rules, r.body ≠ []) {u : List Symbol}
    (h : g.Derives [g.start] u) : g.Followed {some Symbol.endMark} u := by
  induction h with
  | refl => exact ⟨fun _ a ha => .start (SortedSet.mem_singleton.mp ha), trivial⟩
  | tail _ hstep ih =>
    cases hstep with
    | rewrite α β hr hn => exact ih.rewrite hr hn (hfull _ hr)

/-! ## The sets and derivations -/

theorem Follows.exists_derives (hres : ∀ r ∈ g.rules, r.result.isNonterminal)
    (hreach : ∀ r ∈ g.rules, g.Reachable r.result) {x z : Symbol} (h : g.Follows (some z) x) :
    (¬ z.isNonterminal ∧ ∃ α β, g.Derives [g.start] (α ++ x :: z :: β)) ∨
      (z = Symbol.endMark ∧ ∃ α, g.Derives [g.start] (α ++ [x])) := by
  induction h with
  | start ha =>
    cases ha
    exact .inr ⟨rfl, [], .refl⟩
  | @next r x y γ δ hr hbody _ ha =>
    obtain ⟨α, β, hd⟩ := (hreach r hr).exists_derives hres
    have hplace : g.Derives [g.start] ((α ++ γ) ++ x :: (y :: δ ++ β)) :=
      hd.rewrite_at hr (hres r hr) hbody
    rcases mem_firstOfSymbol.mp ha with ⟨-, hz⟩ | ⟨hy, ha⟩
    · obtain ⟨ζ, hyz⟩ := hz.exists_derives hres
      rw [List.append_cons] at hplace
      refine .inl ⟨hz.not_isNonterminal, α ++ γ, ζ ++ (δ ++ β), ?_⟩
      rw [List.append_cons]
      exact hplace.trans_at hyz
    · cases ha
      exact .inl ⟨hy, α ++ γ, δ ++ β, hplace⟩
  | @last r x γ hr hbody _ _ ih =>
    rcases ih with ⟨hz, α, β, hd⟩ | ⟨hz, α, hd⟩
    · exact .inl ⟨hz, α ++ γ, β, hd.rewrite_at hr (hres r hr) hbody⟩
    · exact .inr ⟨hz, α ++ γ, hd.rewrite_at hr (hres r hr) hbody⟩

theorem not_follows_none (hfull : ∀ r ∈ g.rules, r.body ≠ []) (x : Symbol) :
    ¬ g.Follows none x := by
  intro h
  induction h with
  | start ha => cases ha
  | @next _ _ y _ _ _ _ _ ha =>
    rcases mem_firstOfSymbol.mp ha with ⟨-, h⟩ | ⟨-, h⟩
    · exact not_leads_none hfull y h
    · cases h
  | last _ _ _ _ ih => exact ih

/-- FOLLOW in terms of derivations, for rules that produce non-terminals that
can be reached.  A symbol in the set stands behind the non-terminal in some
sentential form, the end of the input behind one that ends with it; and where
no body is empty the set holds all that stands there. -/
theorem follow_by_derivations (g : Grammar) (hres : ∀ r ∈ g.rules, r.result.isNonterminal)
    (hreach : ∀ r ∈ g.rules, g.Reachable r.result) (x : Symbol) (hx : x.isNonterminal)
    (hplace : (∃ r ∈ g.rules, x ∈ r.body) ∨ x = g.start) :
    ∃ s, g.follow.find x = .ok s ∧
      (∀ z, some z ∈ s →
        (¬ z.isNonterminal ∧ ∃ α β, g.Derives [g.start] (α ++ x :: z :: β)) ∨
          (z = Symbol.endMark ∧ ∃ α, g.Derives [g.start] (α ++ [x]))) ∧
      ((∀ r ∈ g.rules, r.body ≠ []) →
        none ∉ s ∧
        (∀ z α β, ¬ z.isNonterminal → g.Derives [g.start] (α ++ x :: z :: β) → some z ∈ s) ∧
        ∀ α, g.Derives [g.start] (α ++ [x]) → some Symbol.endMark ∈ s) := by
  have hkey : x ∈ g.follow.keys := by
    rcases hplace with hplace | rfl
    · exact mem_keys_follow.mpr (.inr (.inr (.inl ⟨hx, hplace⟩)))
    · exact mem_keys_follow.mpr (.inr (.inr (.inr rfl)))
  refine ⟨g.follow.get x, ?_, ?_, fun hfull => ⟨?_, ?_, ?_⟩⟩
  · rw [SetTable.find, SetTable.get?_eq_some hkey]
  · exact fun z hz => (mem_follow.mp hz).exists_derives hres hreach
  · exact fun h => not_follows_none hfull x (mem_follow.mp h)
  · intro z α β hz hd
    obtain ⟨-, hfollow, -⟩ := followed_append.mp (followed_of_derives hfull hd)
    exact mem_follow.mpr (hfollow hx (some z) (mem_firstOfSymbol.mpr (.inr ⟨hz, rfl⟩)))
  · intro α hd
    obtain ⟨-, hfollow, -⟩ := followed_append.mp (followed_of_derives hfull hd)
    exact mem_follow.mpr (hfollow hx _ (SortedSet.mem_singleton.mpr rfl))

/-- Behind a term of a sum there is a plus sign or the end. -/
theorem follow_by_derivations_sums :
    (∀ r ∈ sums.rules, r.result.isNonterminal) ∧ (∀ r ∈ sums.rules, sums.Reachable r.result) ∧
      Symbol.isNonterminal "TERM" ∧ (∃ r ∈ sums.rules, "TERM" ∈ r.body) ∧
      (∀ r ∈ sums.rules, r.body ≠ []) ∧
      ∃ s, sums.follow.find "TERM" = .ok s ∧ some "+" ∈ s ∧ some Symbol.endMark ∈ s ∧ none ∉ s := by
  have hres : ∀ r ∈ sums.rules, r.result.isNonterminal := by decide
  have hterm : Symbol.isNonterminal "TERM" := by decide
  have hplace : ∃ r ∈ sums.rules, "TERM" ∈ r.body := by decide
  have hfull : ∀ r ∈ sums.rules, r.body ≠ [] := by decide
  have hreach : ∀ r ∈ sums.rules, sums.Reachable r.result := by
    intro r hr
    have hcases : r.result = "EXPR" ∨ r.result = "TERM" := by
      revert r
      decide
    rcases hcases with h | h
    · rw [h]
      exact .start
    · rw [h]
      exact @Reachable.body sums ⟨"EXPR", ["TERM"]⟩ _ (by decide) .start (by decide) hterm
  obtain ⟨s, hs, -, hcomplete⟩ :=
    follow_by_derivations sums hres hreach "TERM" hterm (.inl hplace)
  obtain ⟨hnone, hterminals, hend⟩ := hcomplete hfull
  have hsum : sums.Produces ["EXPR"] ["EXPR", "+", "TERM"] :=
    @Produces.rewrite sums ⟨"EXPR", ["EXPR", "+", "TERM"]⟩ [] [] (by decide) (by decide)
  have hleft : sums.Produces ["EXPR", "+", "TERM"] ["TERM", "+", "TERM"] :=
    @Produces.rewrite sums ⟨"EXPR", ["TERM"]⟩ [] ["+", "TERM"] (by decide) (by decide)
  refine ⟨hres, hreach, hterm, hplace, hfull, s, hs, ?_, ?_, hnone⟩
  · exact hterminals "+" [] ["TERM"] (by decide) ((Relation.ReflTransGen.single hsum).tail hleft)
  · exact hend ["EXPR", "+"] (Relation.ReflTransGen.single hsum)

end LRZero.Grammar
