import LRZero.Proofs.LeastSets
import LRZero.Proofs.RuleListing

/-!
# The sets grow with the rules

A family of sets that solves the equations of a grammar solves those of every
part of it, and the sets of the part are below all its solutions.  So with more
rules each key keeps its set or gets a larger one.  For FOLLOW this takes two
steps, since its equations ask for the FIRST sets, which have grown as well.
Two grammars that have each other's rules are parts of each other and have the
same sets; how the rules are listed only decides how many passes it takes to
find them.

Main statement: `sets_grow`.
-/

namespace LRZero

namespace SetTable

variable {t u : SetTable}

/-- Every key of the table is a key of the other one, with a set that contains
the set it has in the table. -/
def Below (t u : SetTable) : Prop :=
  ∀ k s, t.find k = .ok s → ∃ s', u.find k = .ok s' ∧ s ⊆ s'

theorem below_of_subset (hkeys : ∀ k ∈ t.keys, k ∈ u.keys) (h : t ⊆ u) : t.Below u := by
  intro k s hs
  obtain ⟨hk, rfl⟩ := find_eq_ok_iff.mp hs
  exact ⟨u.get k, find_eq_ok_iff.mpr ⟨hkeys k hk, rfl⟩, h k⟩

/-- Tables below each other give the same answers, also where a key is missing. -/
theorem Below.find_eq (htu : t.Below u) (hut : u.Below t) (k : Symbol) : t.find k = u.find k := by
  cases ht : t.find k with
  | ok s =>
    obtain ⟨s', hs', hsub⟩ := htu k s ht
    obtain ⟨s'', hs'', hsub'⟩ := hut k s' hs'
    obtain rfl : s = s'' := Except.ok.inj (ht.symm.trans hs'')
    rw [hs', SortedSet.ext fun a => ⟨hsub a, hsub' a⟩]
  | error f =>
    cases hu : u.find k with
    | ok s' =>
      obtain ⟨s, hs, -⟩ := hut k s' hu
      rw [ht] at hs
      cases hs
    | error f' => rw [find_eq_error ht, find_eq_error hu]

end SetTable

namespace Grammar

variable {g h : Grammar}

/-- The grammars start with the same symbol, and the rules and the declared
non-terminals of the first are among those of the second. -/
structure PartOf (g h : Grammar) : Prop where
  start : g.start = h.start
  rules : ∀ r ∈ g.rules, r ∈ h.rules
  nonterminals : g.nonterminals ⊆ h.nonterminals

theorem SameRules.partOf (hgh : g.SameRules h) (hdeclared : g.nonterminals = h.nonterminals) :
    g.PartOf h := by
  refine ⟨hgh.start, fun r hr => (hgh.rules r).mp hr, ?_⟩
  rw [hdeclared]
  exact fun _ hx => hx

/-! ## FIRST -/

theorem FirstSolution.of_partOf {F : Symbol → Set (Option Symbol)} (hgh : g.PartOf h)
    (hF : h.FirstSolution F) : g.FirstSolution F := by
  constructor
  · intro r hr
    exact hF.empty r (hgh.rules r hr)
  · intro r hr
    exact hF.terminal r (hgh.rules r hr)
  · intro r hr
    exact hF.nonterminal r (hgh.rules r hr)

theorem PartOf.first_subset (hgh : g.PartOf h) : g.first ⊆ h.first := by
  intro n a ha
  exact (isLeast_first g).2 ((isLeast_first h).1.of_partOf hgh) n ha

theorem PartOf.first_below (hgh : g.PartOf h) : g.first.Below h.first := by
  refine SetTable.below_of_subset (fun n hn => ?_) hgh.first_subset
  obtain ⟨r, hr, hresult⟩ := mem_keys_first.mp hn
  exact mem_keys_first.mpr ⟨r, hgh.rules r hr, hresult⟩

/-! ## FOLLOW -/

theorem FollowSolution.of_partOf {F : Symbol → Set (Option Symbol)} (hgh : g.PartOf h)
    (hF : h.FollowSolution F) : g.FollowSolution F := by
  constructor
  · rw [hgh.start]
    exact hF.start
  · intro r hr
    exact hF.terminal r (hgh.rules r hr)
  -- what the next symbol begins with in the part, it begins with in the whole
  · intro r hr α x y β hbody hx hy a ha
    exact hF.nonterminal r (hgh.rules r hr) α x y β hbody hx hy (hgh.first_subset y a ha)
  · intro r hr
    exact hF.last r (hgh.rules r hr)

theorem PartOf.follow_subset (hgh : g.PartOf h) : g.follow ⊆ h.follow := by
  intro x a ha
  exact (isLeast_follow g).2 ((isLeast_follow h).1.of_partOf hgh) x ha

theorem PartOf.follow_below (hgh : g.PartOf h) : g.follow.Below h.follow := by
  refine SetTable.below_of_subset (fun x hx => mem_keys_follow.mpr ?_) hgh.follow_subset
  rcases mem_keys_follow.mp hx with ⟨r, hr, hresult⟩ | hx | ⟨hx, r, hr, hbody⟩ | rfl
  · exact .inl ⟨r, hgh.rules r hr, hresult⟩
  · exact .inr (.inl (hgh.nonterminals x hx))
  · exact .inr (.inr (.inl ⟨hx, r, hgh.rules r hr, hbody⟩))
  · exact .inr (.inr (.inr hgh.start))

/-! ## Both -/

/-- A chain of non-terminals, listed from the start symbol on: FIRST sets are
handed up and FOLLOW sets down. -/
def chain : Grammar where
  start := "S"
  terminals := .ofList ["b"]
  nonterminals := .ofList ["S", "A", "B"]
  rules := [⟨"S", ["A"]⟩, ⟨"A", ["B"]⟩, ⟨"B", ["b"]⟩]

/-- The chain listed the other way. -/
def chainBack : Grammar := { chain with rules := chain.rules.reverse }

theorem sameRules_chain : chain.SameRules chainBack :=
  ⟨rfl, fun _ => List.mem_reverse.symm⟩

/-- FIRST and FOLLOW grow with the rules and the declared non-terminals, keys
and sets.  Where the rules are the same, however they are listed, and the
declared non-terminals too, the sets are the same, though they may be found in
a different number of passes. -/
theorem sets_grow :
    (∀ g h : Grammar, g.PartOf h → g.first.Below h.first ∧ g.follow.Below h.follow) ∧
    (∀ g h : Grammar, g.SameRules h → g.nonterminals = h.nonterminals →
      (∀ k, g.first.find k = h.first.find k) ∧ ∀ k, g.follow.find k = h.follow.find k) ∧
    ∃ g h : Grammar, g.SameRules h ∧ g.nonterminals = h.nonterminals ∧
      g.firstPasses.length ≠ h.firstPasses.length ∧
      g.followPasses.length ≠ h.followPasses.length := by
  refine ⟨fun g h hgh => ⟨hgh.first_below, hgh.follow_below⟩, fun g h hgh hdeclared => ?_, ?_⟩
  · have hgh' := hgh.partOf hdeclared
    have hhg' := hgh.symm.partOf hdeclared.symm
    exact ⟨hgh'.first_below.find_eq hhg'.first_below, hgh'.follow_below.find_eq hhg'.follow_below⟩
  · exact ⟨chain, chainBack, sameRules_chain, rfl, by decide +kernel, by decide +kernel⟩

/-- Sums with parentheses around them as further terms. -/
def nestedSums : Grammar :=
  { sums with
    terminals := .ofList ["+", "id", "(", ")"]
    rules := ⟨"TERM", ["(", "EXPR", ")"]⟩ :: sums.rules }

/-- What begins a sum still begins it when sums may be nested, and the chain has
the same sets from either end. -/
theorem sets_grow_sums :
    sums.PartOf nestedSums ∧ chain.SameRules chainBack ∧
      chain.nonterminals = chainBack.nonterminals ∧
      (∃ s, nestedSums.first.find "EXPR" = .ok s ∧ some "id" ∈ s) ∧
      ∀ k, chain.follow.find k = chainBack.follow.find k := by
  have hpart : sums.PartOf nestedSums :=
    ⟨rfl, fun r hr => List.mem_cons_of_mem _ hr, fun _ hx => hx⟩
  obtain ⟨hgrow, hlisted, -⟩ := sets_grow
  have hexpr : "EXPR" ∈ sums.first.keys := mem_keys_first.mpr (by decide)
  have hid : some "id" ∈ sums.first.get "EXPR" := by
    have hterm : sums.Leads (some "id") "TERM" :=
      @Leads.terminal sums _ ⟨"TERM", ["id"]⟩ "id" [] (by decide) rfl (by decide) rfl
    exact mem_first.mpr
      (@Leads.nonterminal sums _ ⟨"EXPR", ["TERM"]⟩ "TERM" [] (by decide) rfl (by decide) hterm)
  obtain ⟨s, hs, hsub⟩ :=
    (hgrow sums nestedSums hpart).1 "EXPR" _ (SetTable.find_eq_ok_iff.mpr ⟨hexpr, rfl⟩)
  exact ⟨hpart, sameRules_chain, rfl, ⟨s, hs, hsub _ hid⟩,
    (hlisted chain chainBack sameRules_chain rfl).2⟩

end Grammar

end LRZero
