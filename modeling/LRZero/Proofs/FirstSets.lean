import LRZero.First
import LRZero.Proofs.Derivation
import LRZero.Proofs.LeastSolution

/-!
# FIRST sets are what derivations begin with

The solver hands leading symbols from rule to rule.  `Leads` says which
symbols come along such a chain, and `mem_first` that the FIRST sets hold
exactly these.  The textbook meaning goes by derivations, which rewrite
anywhere: what a FIRST set holds begins a derived form, and as long as no body
is empty the symbol that begins a derived form is in the set.
-/

namespace LRZero.Grammar

variable {g : Grammar} {a : Option Symbol}

/-! ## Chains of leading symbols -/

/-- `Leads g a x`: from the rules of `x`, over the non-terminals that lead
their bodies, one comes to a body that begins with the terminal `a`, or to an
empty one where `a` is `none`. -/
inductive Leads (g : Grammar) (a : Option Symbol) : Symbol → Prop
  | empty {r : Rule} : r ∈ g.rules → r.body = [] → a = none → Leads g a r.result
  | terminal {r : Rule} {y : Symbol} {rest : List Symbol} : r ∈ g.rules → r.body = y :: rest →
      ¬ y.isNonterminal → a = some y → Leads g a r.result
  | nonterminal {r : Rule} {y : Symbol} {rest : List Symbol} : r ∈ g.rules → r.body = y :: rest →
      y.isNonterminal → Leads g a y → Leads g a r.result

theorem keys_first (g : Grammar) : g.first.keys = g.firstKeys.keys :=
  Inclusion.keys_solution g.firstSystem g.firstKeys

theorem mem_keys_firstKeys {x : Symbol} : x ∈ g.firstKeys.keys ↔ ∃ r ∈ g.rules, r.result = x := by
  rw [firstKeys, SetTable.mem_keys_ofKeys, List.mem_map]

theorem mem_keys_first {x : Symbol} : x ∈ g.first.keys ↔ ∃ r ∈ g.rules, r.result = x := by
  rw [keys_first, mem_keys_firstKeys]

theorem leads_of_owed {x : Symbol} (h : Inclusion.Owed g.firstSystem g.firstKeys a x) :
    g.Leads a x := by
  induction h with
  | held ha =>
    rw [firstKeys, SetTable.get_ofKeys] at ha
    exact absurd ha (SortedSet.not_mem_empty a)
  | given hi _ ha =>
    obtain ⟨r, hr, he⟩ := List.mem_map.mp hi
    obtain ⟨rfl, hs⟩ := Inclusion.mk.inj he
    cases hbody : r.body with
    | nil =>
      rw [hbody] at hs
      cases hs
      exact .empty hr hbody (SortedSet.mem_singleton.mp ha)
    | cons y rest =>
      rw [hbody, Source.ofBody] at hs
      split at hs
      · cases hs
      · next hy =>
        cases hs
        exact .terminal hr hbody hy (SortedSet.mem_singleton.mp ha)
  | handed hi _ _ ih =>
    obtain ⟨r, hr, he⟩ := List.mem_map.mp hi
    obtain ⟨rfl, hs⟩ := Inclusion.mk.inj he
    cases hbody : r.body with
    | nil =>
      rw [hbody] at hs
      cases hs
    | cons y rest =>
      rw [hbody, Source.ofBody] at hs
      split at hs
      · next hy =>
        cases hs
        exact .nonterminal hr hbody hy ih
      · cases hs

theorem Leads.owed {x : Symbol} (h : g.Leads a x) :
    Inclusion.Owed g.firstSystem g.firstKeys a x := by
  have hmem : ∀ {r : Rule} {s : Source}, r ∈ g.rules → Source.ofBody r.body = s →
      ⟨r.result, s⟩ ∈ g.firstSystem := by
    intro r s hr hs
    exact List.mem_map.mpr ⟨r, hr, by rw [hs]⟩
  have hkey : ∀ {r : Rule}, r ∈ g.rules → r.result ∈ g.firstKeys.keys :=
    fun hr => mem_keys_firstKeys.mpr ⟨_, hr, rfl⟩
  induction h with
  | empty hr hbody ha =>
    exact .given (hmem hr (by rw [hbody]; rfl)) (hkey hr) (SortedSet.mem_singleton.mpr ha)
  | terminal hr hbody hy ha =>
    exact .given (hmem hr (by rw [hbody, Source.ofBody, if_neg hy])) (hkey hr)
      (SortedSet.mem_singleton.mpr ha)
  | nonterminal hr hbody hy _ ih =>
    exact .handed (hmem hr (by rw [hbody, Source.ofBody, if_pos hy])) (hkey hr) ih

/-- The FIRST sets hold exactly what comes along chains of leading symbols. -/
theorem mem_first {x : Symbol} : a ∈ g.first.get x ↔ g.Leads a x :=
  Inclusion.mem_solution.trans ⟨leads_of_owed, Leads.owed⟩

/-- What a symbol of a body begins with. -/
theorem mem_firstOfSymbol {x : Symbol} : a ∈ g.first.firstOfSymbol (some x) ↔
    (x.isNonterminal ∧ g.Leads a x) ∨ (¬ x.isNonterminal ∧ a = some x) := by
  rw [SetTable.firstOfSymbol]
  split
  · next hx => exact ⟨fun h => .inl ⟨hx, mem_first.mp h⟩, fun h => by
      rcases h with ⟨-, h⟩ | ⟨hx', -⟩
      · exact mem_first.mpr h
      · exact absurd hx hx'⟩
  · next hx => exact ⟨fun h => .inr ⟨hx, SortedSet.mem_singleton.mp h⟩, fun h => by
      rcases h with ⟨hx', -⟩ | ⟨-, h⟩
      · exact absurd hx' hx
      · exact SortedSet.mem_singleton.mpr h⟩

/-- What the leading symbol of a body begins with, its result begins with. -/
theorem leads_of_head {r : Rule} {y : Symbol} {rest : List Symbol} (hr : r ∈ g.rules)
    (hbody : r.body = y :: rest) (h : a ∈ g.first.firstOfSymbol (some y)) :
    g.Leads a r.result := by
  rcases mem_firstOfSymbol.mp h with ⟨hy, h⟩ | ⟨hy, ha⟩
  · exact .nonterminal hr hbody hy h
  · exact .terminal hr hbody hy ha

/-! ## Chains and derivations -/

theorem Leads.not_isNonterminal {x y : Symbol} (h : g.Leads (some y) x) : ¬ y.isNonterminal := by
  induction h with
  | empty _ _ ha => cases ha
  | terminal _ _ hy ha =>
    cases ha
    exact hy
  | nonterminal _ _ _ _ ih => exact ih

/-- The leading symbol of a body derives in its place what it derives alone. -/
theorem derives_of_head (hres : ∀ r ∈ g.rules, r.result.isNonterminal) {r : Rule} {y : Symbol}
    {rest u : List Symbol} (hr : r ∈ g.rules) (hbody : r.body = y :: rest) (h : g.Derives [y] u) :
    g.Derives [r.result] (u ++ rest) := by
  have hstep : g.Derives [r.result] ([] ++ y :: (rest ++ [])) :=
    Derives.rewrite_at (show g.Derives _ ([] ++ r.result :: []) from .refl) hr (hres r hr) hbody
  rw [List.append_nil] at hstep
  exact hstep.trans_at h

theorem Leads.exists_derives (hres : ∀ r ∈ g.rules, r.result.isNonterminal) {x y : Symbol}
    (h : g.Leads (some y) x) : ∃ β, g.Derives [x] (y :: β) := by
  induction h with
  | empty _ _ ha => cases ha
  | @terminal r _ rest hr hbody _ ha =>
    cases ha
    exact ⟨rest, derives_of_head hres hr hbody .refl⟩
  | @nonterminal r _ rest hr hbody _ _ ih =>
    obtain ⟨β, hd⟩ := ih
    exact ⟨β ++ rest, derives_of_head hres hr hbody hd⟩

theorem Leads.exists_empty (hres : ∀ r ∈ g.rules, r.result.isNonterminal) {x : Symbol}
    (h : g.Leads none x) : ∃ m β, ⟨m, []⟩ ∈ g.rules ∧ g.Derives [x] (m :: β) := by
  induction h with
  | @empty r hr hbody _ => exact ⟨r.result, [], hbody ▸ hr, .refl⟩
  | terminal _ _ _ ha => cases ha
  | @nonterminal r _ rest hr hbody _ _ ih =>
    obtain ⟨m, β, hm, hd⟩ := ih
    exact ⟨m, β ++ rest, hm, derives_of_head hres hr hbody hd⟩

theorem not_leads_none (hfull : ∀ r ∈ g.rules, r.body ≠ []) (x : Symbol) : ¬ g.Leads none x := by
  intro h
  induction h with
  | empty hr hbody _ => exact hfull _ hr hbody
  | terminal _ _ _ ha => cases ha
  | nonterminal _ _ _ _ ih => exact ih

/-- Without empty bodies the symbol at the head of a form gives way only to
symbols that begin with less, so what the last head begins with, the first
one does. -/
theorem leads_of_derives (hfull : ∀ r ∈ g.rules, r.body ≠ []) {x : Symbol} (hx : x.isNonterminal)
    {u : List Symbol} (h : g.Derives [x] u) :
    ∀ y w, u = y :: w → a ∈ g.first.firstOfSymbol (some y) → g.Leads a x := by
  induction h with
  | refl =>
    intro y w he ha
    cases he
    rcases mem_firstOfSymbol.mp ha with ⟨-, h⟩ | ⟨hx', -⟩
    · exact h
    · exact absurd hx hx'
  | tail _ hstep ih =>
    intro y w he ha
    cases hstep with
    | @rewrite r α β hr hn =>
      cases α with
      -- the step is made behind the head
      | cons z α =>
        obtain ⟨rfl, -⟩ := List.cons.inj he
        exact ih z _ rfl ha
      -- the head gives way to a body, which has a head of its own
      | nil =>
        obtain ⟨z, rest, hbody⟩ := List.exists_cons_of_ne_nil (hfull r hr)
        rw [hbody] at he
        obtain ⟨rfl, -⟩ := List.cons.inj he
        exact ih r.result β rfl (mem_firstOfSymbol.mpr (.inl ⟨hn, leads_of_head hr hbody ha⟩))

/-- FIRST in terms of derivations, for rules that produce non-terminals.  A
symbol in the set begins a derived form; the mark of an empty body stems from
a derived form that begins with what has an empty rule; and where no body is
empty the set holds every terminal that begins a derived form. -/
theorem first_by_derivations (g : Grammar) (hres : ∀ r ∈ g.rules, r.result.isNonterminal) (n : Symbol)
    (hn : ∃ r ∈ g.rules, r.result = n) :
    ∃ s, g.first.find n = .ok s ∧
      (∀ x, some x ∈ s → ¬ x.isNonterminal ∧ ∃ β, g.Derives [n] (x :: β)) ∧
      (none ∈ s → ∃ m β, ⟨m, []⟩ ∈ g.rules ∧ g.Derives [n] (m :: β)) ∧
      ((∀ r ∈ g.rules, r.body ≠ []) →
        (∀ x β, ¬ x.isNonterminal → g.Derives [n] (x :: β) → some x ∈ s) ∧
          ∀ k, none ∉ g.first.get k) := by
  have hnt : n.isNonterminal := by
    obtain ⟨r, hr, rfl⟩ := hn
    exact hres r hr
  refine ⟨g.first.get n, ?_, ?_, ?_, ?_⟩
  · rw [SetTable.find, SetTable.get?_eq_some (mem_keys_first.mpr hn)]
  · intro x hx
    have h := mem_first.mp hx
    exact ⟨h.not_isNonterminal, h.exists_derives hres⟩
  · intro h
    exact (mem_first.mp h).exists_empty hres
  · intro hfull
    refine ⟨?_, fun k hk => not_leads_none hfull k (mem_first.mp hk)⟩
    intro x β hx hd
    exact mem_first.mpr
      (leads_of_derives hfull hnt hd x β rfl (mem_firstOfSymbol.mpr (.inr ⟨hx, rfl⟩)))

/-- An identifier begins a sum, and nothing is no sum. -/
theorem first_by_derivations_sums :
    (∀ r ∈ sums.rules, r.result.isNonterminal) ∧ (∃ r ∈ sums.rules, r.result = "EXPR") ∧
      (∀ r ∈ sums.rules, r.body ≠ []) ∧
      ∃ s, sums.first.find "EXPR" = .ok s ∧ some "id" ∈ s ∧ none ∉ sums.first.get "EXPR" := by
  have hres : ∀ r ∈ sums.rules, r.result.isNonterminal := by decide
  have hexpr : ∃ r ∈ sums.rules, r.result = "EXPR" := by decide
  have hfull : ∀ r ∈ sums.rules, r.body ≠ [] := by decide
  obtain ⟨s, hs, -, -, hcomplete⟩ := first_by_derivations sums hres "EXPR" hexpr
  obtain ⟨hterminals, hnone⟩ := hcomplete hfull
  have hterm : sums.Produces ["EXPR"] ["TERM"] :=
    @Produces.rewrite sums ⟨"EXPR", ["TERM"]⟩ [] [] (by decide) (by decide)
  have hid : sums.Produces ["TERM"] ["id"] :=
    @Produces.rewrite sums ⟨"TERM", ["id"]⟩ [] [] (by decide) (by decide)
  refine ⟨hres, hexpr, hfull, s, hs, ?_, hnone "EXPR"⟩
  exact hterminals "id" [] (by decide) ((Relation.ReflTransGen.single hterm).tail hid)

end LRZero.Grammar
