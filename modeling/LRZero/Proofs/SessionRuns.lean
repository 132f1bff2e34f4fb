import Mathlib.Data.List.DropRight
import LRZero.Session
import LRZero.Proofs.CanonicalCollection
import LRZero.Proofs.Derivation

/-!
# The analysis that a session keeps

A session hands out its own states, whose closures change them in place, and
lets rules be appended behind the back of its analysis.  Right after a step
that makes the analysis anew it is the analysis of the grammar as it is then,
whatever went before.  From there on it stays as it is until a rule is
appended: the states are closed under the rules, so that taking the closure of
one of them changes nothing, and no other step touches what the analysis holds.

The invariant is `Settled`: the own states are closed under the rules that the
session has now.  Main statement: `analysis_after`.
-/

namespace LRZero

/-- Does the step make the analysis anew? -/
def Step.recomputes : Step → Bool
  | .setRules _ => true
  | .update => true
  | _ => false

/-- Does the step append a rule in place? -/
def Step.appends : Step → Bool
  | .appendRule _ => true
  | _ => false

/-- The steps up to the last one that makes the analysis anew. -/
def toRecomputation (steps : List Step) : List Step := steps.rdropWhile fun x => !x.recomputes

/-- The steps behind the last one that makes the analysis anew. -/
def sinceRecomputation (steps : List Step) : List Step := steps.rtakeWhile fun x => !x.recomputes

namespace Session

/-- The session of a grammar after some steps. -/
def after (g : Grammar) (steps : List Step) : Session := ((start g).run steps).1

variable {s : Session}

theorem run_append (s : Session) (xs ys : List Step) :
    (s.run (xs ++ ys)).1 = ((s.run xs).1.run ys).1 := by
  induction xs generalizing s with
  | nil => rfl
  | cons x xs ih => exact ih (s.step x).1

theorem after_concat (g : Grammar) (steps : List Step) (x : Step) :
    after g (steps ++ [x]) = ((after g steps).step x).1 :=
  run_append (start g) steps [x]

/-! ## Own states -/

theorem lt_of_index? {n i : Nat} {position : Int} (h : index? n position = some i) : i < n := by
  simp only [index?, Option.ite_none_right_eq_some, Option.some.injEq] at h
  omega

/-- A reference to an own state is found at its place. -/
theorem lookup_own {position : Int} {i : Nat}
    (h : index? s.analysis.states.length position = some i) :
    ∃ p, s.analysis.states[i]? = some p ∧ s.lookup (.own position) = .ok (some i, p) := by
  have hget := List.getElem?_eq_getElem (lt_of_index? h)
  refine ⟨_, hget, ?_⟩
  rw [lookup, h, Option.bind_some, hget]
  rfl

theorem getElem?_of_lookup {ref : StateRef} {i : Nat} {p : State}
    (h : s.lookup ref = .ok (some i, p)) : s.analysis.states[i]? = some p := by
  cases ref with
  | given state => cases h
  | own position =>
    rw [lookup] at h
    split at h
    · next j q hfound =>
      cases h
      obtain ⟨j, -, hj⟩ := Option.bind_eq_some_iff.mp hfound
      obtain ⟨r, hr, he⟩ := Option.map_eq_some_iff.mp hj
      cases he
      exact hr
    · cases h

/-- Putting a state where it is changes nothing. -/
theorem setState_self {i : Nat} {p : State} (h : s.analysis.states[i]? = some p) :
    s.setState i p = s := by
  obtain ⟨hlt, rfl⟩ := List.getElem?_eq_some_iff.mp h
  rw [setState, List.set_getElem_self]

/-! ## Steps that keep the analysis -/

/-- The own states are closed under the rules, with the dots of their items in
the bodies. -/
structure Settled (s : Session) : Prop where
  closed : ∀ p ∈ s.analysis.states, s.grammar.Closed p
  inBody : ∀ p ∈ s.analysis.states, ∀ i ∈ p.items, i.InBody

theorem settled_of_analysis (h : s.analysis = s.grammar.analysis) : s.Settled := by
  have hstates : s.analysis.states = s.grammar.collection.states := by
    rw [h]
    rfl
  constructor
  · intro p hp
    rw [hstates] at hp
    exact Grammar.closed_collection p hp
  · intro p hp
    rw [hstates] at hp
    exact (Grammar.within_collection p hp).inBody

/-- The closure of an own state is that state. -/
theorem Settled.closure_own (h : s.Settled) {ref : StateRef} {i : Nat} {p : State}
    (hlookup : s.lookup ref = .ok (some i, p)) :
    s.closure ref = (s.logged (s.grammar.closureLog p), .state p) := by
  have hp := getElem?_of_lookup hlookup
  have hmem := List.mem_of_getElem? hp
  have hclosure : s.grammar.closure? p = (.ok p, s.grammar.closureLog p) := by
    rw [Grammar.closure?_eq_ok (h.inBody p hmem), (h.closed p hmem).closure_eq]
  have hkeep : (s.logged (s.grammar.closureLog p)).setState i p = s.logged (s.grammar.closureLog p) :=
    setState_self hp
  simp only [closure, hlookup, hclosure, hkeep]

theorem logged_nil (s : Session) : s.logged [] = s := by
  rw [logged, List.append_nil]

/-- A closure only logs. -/
theorem Settled.exists_logged_closure (h : s.Settled) (ref : StateRef) :
    ∃ log, (s.closure ref).1 = s.logged log := by
  cases hlookup : s.lookup ref with
  | error f => exact ⟨[], by simp only [closure, hlookup, logged_nil]⟩
  | ok found =>
    obtain ⟨i?, p⟩ := found
    cases i? with
    | some i => exact ⟨_, congrArg Prod.fst (h.closure_own hlookup)⟩
    | none =>
      refine ⟨(s.grammar.closure? p).2, ?_⟩
      simp only [closure, hlookup]
      split
      · next hclosure => rw [hclosure]
      · next hclosure => rw [hclosure]

/-- A goto only logs. -/
theorem exists_logged_goto (s : Session) (ref : StateRef) (x : Option Symbol) (n : Int) :
    ∃ log, (s.goto ref x n).1 = s.logged log := by
  cases hlookup : s.lookup ref with
  | error f => exact ⟨[], by simp only [goto, hlookup, logged_nil]⟩
  | ok found =>
    obtain ⟨i?, p⟩ := found
    refine ⟨(s.grammar.goto? p x n).2, ?_⟩
    simp only [goto, hlookup]
    split
    · next hgoto => rw [hgoto]
    · next hgoto => rw [hgoto]

/-- A step that neither appends a rule nor makes the analysis anew keeps the
analysis and the rules. -/
theorem Settled.step_eq (h : s.Settled) {x : Step} (hr : ¬ x.recomputes) (ha : ¬ x.appends) :
    (s.step x).1.analysis = s.analysis ∧ (s.step x).1.grammar.rules = s.grammar.rules := by
  cases x with
  | setRules rules => exact absurd rfl hr
  | update => exact absurd rfl hr
  | appendRule r => exact absurd rfl ha
  | closure ref =>
    obtain ⟨log, hlog⟩ := h.exists_logged_closure ref
    rw [step, hlog]
    exact ⟨rfl, rfl⟩
  | goto ref x n =>
    obtain ⟨log, hlog⟩ := s.exists_logged_goto ref x n
    rw [step, hlog]
    exact ⟨rfl, rfl⟩
  | _ => exact ⟨rfl, rfl⟩

theorem Settled.of_eq {t : Session} (h : s.Settled) (hanalysis : t.analysis = s.analysis)
    (hrules : t.grammar.rules = s.grammar.rules) : t.Settled := by
  constructor
  · intro p hp
    rw [hanalysis] at hp
    exact (h.closed p hp).of_rules_eq hrules
  · intro p hp
    rw [hanalysis] at hp
    exact h.inBody p hp

/-- A run of such steps keeps the analysis, by induction on the steps. -/
theorem Settled.run_eq (h : s.Settled) {steps : List Step}
    (hsteps : ∀ x ∈ steps, ¬ x.recomputes ∧ ¬ x.appends) :
    (s.run steps).1.analysis = s.analysis ∧ (s.run steps).1.Settled := by
  induction steps generalizing s with
  | nil => exact ⟨rfl, h⟩
  | cons x steps ih =>
    obtain ⟨hr, ha⟩ := hsteps x List.mem_cons_self
    obtain ⟨hanalysis, hrules⟩ := h.step_eq hr ha
    obtain ⟨hrun, hsettled⟩ :=
      ih (h.of_eq hanalysis hrules) fun y hy => hsteps y (List.mem_cons_of_mem _ hy)
    exact ⟨hrun.trans hanalysis, hsettled⟩

/-! ## Steps that make the analysis anew -/

theorem analysis_step (s : Session) {x : Step} (hx : x.recomputes) :
    (s.step x).1.analysis = (s.step x).1.grammar.analysis := by
  cases x with
  | setRules rules => rfl
  | update => rfl
  | _ => cases hx

/-- At the last recomputation, or at the start where there has been none, the
analysis is that of the grammar. -/
theorem analysis_toRecomputation (g : Grammar) (steps : List Step) :
    (after g (toRecomputation steps)).analysis = (after g (toRecomputation steps)).grammar.analysis := by
  induction steps using List.reverseRecOn with
  | nil => rfl
  | append_singleton steps x ih =>
    cases hx : x.recomputes with
    | true =>
      have hlast : toRecomputation (steps ++ [x]) = steps ++ [x] :=
        List.rdropWhile_concat_neg _ _ _ (by rw [hx]; simp)
      rw [hlast, after_concat]
      exact analysis_step _ hx
    | false =>
      have hlast : toRecomputation (steps ++ [x]) = toRecomputation steps :=
        List.rdropWhile_concat_pos _ _ _ (by rw [hx]; rfl)
      rwa [hlast]

/-- The analysis of a session after any steps.  Right after a step that makes
it anew it is that of a session newly started with the grammar as it is then.
Where no rule has been appended since the last such step, it is what it was
after that step, and the closure of an own state is that state and leaves the
analysis as it is. -/
theorem analysis_after (g : Grammar) (steps : List Step) :
    (∀ x : Step, x.recomputes →
      (after g (steps ++ [x])).analysis = (start (after g (steps ++ [x])).grammar).analysis) ∧
    ((∀ x ∈ sinceRecomputation steps, ¬ x.appends) →
      (after g steps).analysis = (after g (toRecomputation steps)).analysis ∧
      ∀ position i, index? (after g steps).analysis.states.length position = some i →
        ∃ p, (after g steps).analysis.states[i]? = some p ∧
          ((after g steps).step (.closure (.own position))).2 = .state p ∧
          ((after g steps).step (.closure (.own position))).1.analysis = (after g steps).analysis) := by
  constructor
  · intro x hx
    rw [after_concat]
    exact analysis_step _ hx
  · intro happends
    have hsplit : steps = toRecomputation steps ++ sinceRecomputation steps :=
      (List.rdropWhile_append_rtakeWhile ..).symm
    have hsettled := settled_of_analysis (analysis_toRecomputation g steps)
    have hkeep : ∀ x ∈ sinceRecomputation steps, ¬ x.recomputes ∧ ¬ x.appends := by
      intro x hx
      refine ⟨?_, happends x hx⟩
      have hlate := List.mem_rtakeWhile_imp hx
      simpa using hlate
    have hrun := hsettled.run_eq hkeep
    have hafter : after g steps = ((after g (toRecomputation steps)).run (sinceRecomputation steps)).1 := by
      conv_lhs => rw [hsplit]
      exact run_append (start g) _ _
    rw [← hafter] at hrun
    refine ⟨hrun.1, fun position i hi => ?_⟩
    obtain ⟨p, hp, hlookup⟩ := lookup_own hi
    have hclosure := hrun.2.closure_own hlookup
    refine ⟨p, hp, ?_, ?_⟩
    · exact congrArg Prod.snd hclosure
    · rw [step, hclosure]
      rfl

/-- A rule is appended to those of sums and the closure of state 0 taken, then
the analysis is made anew; the start symbol that is set last leaves it alone. -/
def sumSteps : List Step :=
  [.appendRule ⟨"TERM", ["(", "EXPR", ")"]⟩, .closure (.own 0), .update, .setStart "TERM"]

/-- In such a session the closure of state 0 is state 0 at last. -/
theorem analysis_after_sums :
    Step.update.recomputes ∧ (∀ x ∈ sinceRecomputation sumSteps, ¬ x.appends) ∧
      (after .sums (sumSteps ++ [.update])).analysis =
        (start (after .sums (sumSteps ++ [.update])).grammar).analysis ∧
      (after .sums sumSteps).analysis = (after .sums (toRecomputation sumSteps)).analysis ∧
      ∃ p, (after .sums sumSteps).analysis.states[0]? = some p ∧
        ((after .sums sumSteps).step (.closure (.own 0))).2 = .state p := by
  have hupdate : Step.update.recomputes := rfl
  have happends : ∀ x ∈ sinceRecomputation sumSteps, ¬ x.appends := by decide
  obtain ⟨hrecomputed, hsince⟩ := analysis_after .sums sumSteps
  obtain ⟨hkept, hclosure⟩ := hsince happends
  have hzero : index? (after .sums sumSteps).analysis.states.length 0 = some 0 := by
    obtain ⟨_, hsearched, -, -⟩ :=
      Grammar.searched_collection (after .sums (toRecomputation sumSteps)).grammar
    have hstart := (List.getElem?_eq_some_iff.mp hsearched.grown.start).1
    rw [hkept, analysis_toRecomputation]
    simp only [index?, Option.ite_none_right_eq_some, Option.some.injEq]
    exact ⟨⟨Int.le_refl 0, Int.ofNat_lt.mpr hstart⟩, rfl⟩
  obtain ⟨p, hp, hanswer, -⟩ := hclosure 0 0 hzero
  exact ⟨hupdate, happends, hrecomputed .update hupdate, hkept, p, hp, hanswer⟩

end Session

end LRZero
