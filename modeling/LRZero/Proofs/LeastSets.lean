import Mathlib.Order.Bounds.Basic
import LRZero.Proofs.FollowSets

/-!
# FIRST and FOLLOW are the least solutions of their equations

Nothing is asked of the grammar here.  The rules say what the sets have to
contain (`FirstSolution`, `FollowSolution`); the tables are the least families
that do, and what is in them can be traced back along a chain of rules to the
rule that brings it.  The solvers look sets up by their keys.  A pass that
stops at a missing key (`Inclusion.pass?`) does the same as a pass that passes
over it, so no key is ever missing, whatever is undeclared or without rules.

Main statement: `sets_least`.
-/

namespace LRZero

/-- The sets of a table, with the empty set for what is no key. -/
def SetTable.family (t : SetTable) : Symbol → Set (Option Symbol) := fun k => {a | a ∈ t.get k}

namespace Inclusion

/-! ## Passes that stop at a missing key -/

/-- The members of a source.  Where `total` is set, a missing key has none;
otherwise it is a fault. -/
def value? (total : Bool) (t : SetTable) : Source → Except Fault SymbolSet
  | .given s => .ok s
  | .key k => if total then .ok (t.get k) else t.find k

/-- The table with one inclusion made good, the target looked up by its key. -/
def enforce? (total : Bool) (t : SetTable) (i : Inclusion) : Except Fault SetTable := do
  let new ← value? total t i.source
  let _ ← t.find i.target
  return t.absorb i.target new

/-- The table after every inclusion has been used once, or the first fault. -/
def pass? (total : Bool) (sys : List Inclusion) (t : SetTable) : Except Fault SetTable :=
  sys.foldlM (enforce? total) t

/-- The system asks a table only for its keys. -/
def Answered (total : Bool) (sys : List Inclusion) (t : SetTable) : Prop :=
  ∀ i ∈ sys, i.target ∈ t.keys ∧ ∀ k, i.source = .key k → total ∨ k ∈ t.keys

variable {total : Bool} {sys : List Inclusion} {t u : SetTable}

theorem find_eq_ok {k : Symbol} (h : k ∈ t.keys) : t.find k = .ok (t.get k) :=
  SetTable.find_eq_ok_iff.mpr ⟨h, rfl⟩

theorem value?_eq_ok {s : Source} (h : ∀ k, s = .key k → total ∨ k ∈ t.keys) :
    value? total t s = .ok (s.value t) := by
  cases s with
  | given s => rfl
  | key k =>
    rw [value?]
    split
    · rfl
    · next htotal => exact find_eq_ok ((h k rfl).resolve_left htotal)

theorem enforce?_eq_ok {i : Inclusion} (htarget : i.target ∈ t.keys)
    (hsource : ∀ k, i.source = .key k → total ∨ k ∈ t.keys) :
    enforce? total t i = .ok (enforce t i) := by
  rw [enforce?, value?_eq_ok hsource, find_eq_ok htarget]
  rfl

theorem pass?_eq_ok (h : Answered total sys t) : pass? total sys t = .ok (pass sys t) := by
  induction sys generalizing t with
  | nil => rfl
  | cons i sys ih =>
    obtain ⟨htarget, hsource⟩ := h i List.mem_cons_self
    have hrest : Answered total sys (enforce t i) := by
      intro j hj
      rw [enforce, SetTable.keys_absorb]
      exact h j (List.mem_cons_of_mem _ hj)
    rw [pass?, List.foldlM_cons, enforce?_eq_ok htarget hsource]
    exact ih hrest

theorem keys_of_mem_passes (h : u ∈ passes sys t) : u.keys = t.keys := by
  induction t using passes.induct sys with
  | case1 t hfix =>
    rw [passes, if_pos hfix] at h
    rw [List.mem_singleton.mp h, hfix]
  | case2 t hne ih =>
    rw [passes, if_neg hne] at h
    rcases List.mem_cons.mp h with rfl | h
    · exact keys_pass sys t
    · exact (ih h).trans (keys_pass sys t)

/-- No pass of a run of passes meets a missing key, when the first table has
all keys that the system asks for. -/
theorem pass?_of_mem_passes (h : Answered total sys t) :
    ∀ u ∈ t :: passes sys t, pass? total sys u = .ok (pass sys u) := by
  intro u hu
  have hkeys : u.keys = t.keys := by
    rcases List.mem_cons.mp hu with rfl | hu
    · rfl
    · exact keys_of_mem_passes hu
  refine pass?_eq_ok ?_
  rwa [Answered, hkeys]

end Inclusion

namespace Grammar

variable {g : Grammar} {a : Option Symbol}

/-! ## FIRST -/

/-- The equations of FIRST: a set holds what the bodies of its rules begin with. -/
structure FirstSolution (g : Grammar) (F : Symbol → Set (Option Symbol)) : Prop where
  empty : ∀ r ∈ g.rules, r.body = [] → none ∈ F r.result
  terminal : ∀ r ∈ g.rules, ∀ y rest, r.body = y :: rest → ¬ y.isNonterminal →
    some y ∈ F r.result
  nonterminal : ∀ r ∈ g.rules, ∀ y rest, r.body = y :: rest → y.isNonterminal →
    F y ⊆ F r.result

/-- A rule of `n` has the non-terminal `m` at the head of its body. -/
def Heads (g : Grammar) (n m : Symbol) : Prop :=
  m.isNonterminal ∧ ∃ r ∈ g.rules, r.result = n ∧ ∃ rest, r.body = m :: rest

/-- A rule of `m` begins with the terminal `a`, or is empty where `a` is `none`. -/
def Begins (g : Grammar) (a : Option Symbol) (m : Symbol) : Prop :=
  ∃ r ∈ g.rules, r.result = m ∧
    ((r.body = [] ∧ a = none) ∨
      ∃ y rest, r.body = y :: rest ∧ ¬ y.isNonterminal ∧ a = some y)

theorem leads_iff_chain {n : Symbol} :
    g.Leads a n ↔ ∃ m, Relation.ReflTransGen g.Heads n m ∧ g.Begins a m := by
  constructor
  · intro h
    induction h with
    | @empty r hr hbody ha => exact ⟨r.result, .refl, r, hr, rfl, .inl ⟨hbody, ha⟩⟩
    | @terminal r y rest hr hbody hy ha =>
      exact ⟨r.result, .refl, r, hr, rfl, .inr ⟨y, rest, hbody, hy, ha⟩⟩
    | @nonterminal r y rest hr hbody hy _ ih =>
      obtain ⟨m, hchain, hm⟩ := ih
      exact ⟨m, .head ⟨hy, r, hr, rfl, rest, hbody⟩ hchain, hm⟩
  · rintro ⟨m, hchain, hm⟩
    induction hchain using Relation.ReflTransGen.head_induction_on with
    | refl =>
      obtain ⟨r, hr, rfl, ⟨hbody, ha⟩ | ⟨y, rest, hbody, hy, ha⟩⟩ := hm
      · exact .empty hr hbody ha
      · exact .terminal hr hbody hy ha
    | head hstep _ ih =>
      obtain ⟨hy, r, hr, rfl, rest, hbody⟩ := hstep
      exact .nonterminal hr hbody hy ih

theorem isLeast_first (g : Grammar) : IsLeast {F | g.FirstSolution F} g.first.family := by
  constructor
  · constructor
    · exact fun r hr hbody => mem_first.mpr (.empty hr hbody rfl)
    · exact fun r hr y rest hbody hy => mem_first.mpr (.terminal hr hbody hy rfl)
    · exact fun r hr y rest hbody hy a ha => mem_first.mpr (.nonterminal hr hbody hy (mem_first.mp ha))
  · intro F hF n a ha
    have hleads : g.Leads a n := mem_first.mp ha
    induction hleads with
    | empty hr hbody ha' => exact ha' ▸ hF.empty _ hr hbody
    | terminal hr hbody hy ha' => exact ha' ▸ hF.terminal _ hr _ _ hbody hy
    | nonterminal hr hbody hy h ih => exact hF.nonterminal _ hr _ _ hbody hy (ih (mem_first.mpr h))

/-- What the rules ask of the table of FIRST sets: the sets of all results.
A head that has none counts as empty. -/
theorem answered_first (g : Grammar) : Inclusion.Answered true g.firstSystem g.firstKeys := by
  intro i hi
  obtain ⟨r, hr, rfl⟩ := List.mem_map.mp hi
  exact ⟨mem_keys_firstKeys.mpr ⟨r, hr, rfl⟩, fun _ _ => .inl rfl⟩

/-! ## FOLLOW -/

/-- The equations of FOLLOW: a set holds what begins the next symbol of a body
or, at the end of a body, what follows its result. -/
structure FollowSolution (g : Grammar) (F : Symbol → Set (Option Symbol)) : Prop where
  start : some Symbol.endMark ∈ F g.start
  terminal : ∀ r ∈ g.rules, ∀ α x y β, r.body = α ++ x :: y :: β → x.isNonterminal →
    ¬ y.isNonterminal → some y ∈ F x
  nonterminal : ∀ r ∈ g.rules, ∀ α x y β, r.body = α ++ x :: y :: β → x.isNonterminal →
    y.isNonterminal → g.first.family y ⊆ F x
  last : ∀ r ∈ g.rules, ∀ α x, r.body = α ++ [x] → x.isNonterminal → F r.result ⊆ F x

/-- A rule of `y` has the non-terminal `x` at the end of its body. -/
def Ends (g : Grammar) (y x : Symbol) : Prop :=
  x.isNonterminal ∧ ∃ r ∈ g.rules, r.result = y ∧ ∃ α, r.body = α ++ [x]

/-- In a body the non-terminal `z` stands before the terminal `a`, or before a
non-terminal with `a` in its FIRST set. -/
def Precedes (g : Grammar) (z : Symbol) (a : Option Symbol) : Prop :=
  z.isNonterminal ∧ ∃ r ∈ g.rules, ∃ α y β, r.body = α ++ z :: y :: β ∧
    ((¬ y.isNonterminal ∧ a = some y) ∨ (y.isNonterminal ∧ a ∈ g.first.get y))

theorem mem_firstOfSymbol_iff_get {y : Symbol} : a ∈ g.first.firstOfSymbol (some y) ↔
    (¬ y.isNonterminal ∧ a = some y) ∨ (y.isNonterminal ∧ a ∈ g.first.get y) := by
  rw [mem_firstOfSymbol, mem_first, or_comm]

theorem follows_iff_chain {x : Symbol} :
    g.Follows a x ↔ ∃ z, ((z = g.start ∧ a = some Symbol.endMark) ∨ g.Precedes z a) ∧
      Relation.ReflTransGen g.Ends z x := by
  constructor
  · intro h
    induction h with
    | start ha => exact ⟨g.start, .inl ⟨rfl, ha⟩, .refl⟩
    | @next r x y α β hr hbody hx ha =>
      exact ⟨x, .inr ⟨hx, r, hr, α, y, β, hbody, mem_firstOfSymbol_iff_get.mp ha⟩, .refl⟩
    | @last r x α hr hbody hx _ ih =>
      obtain ⟨z, hz, hchain⟩ := ih
      exact ⟨z, hz, hchain.tail ⟨hx, r, hr, rfl, α, hbody⟩⟩
  · rintro ⟨z, hz, hchain⟩
    induction hchain with
    | refl =>
      rcases hz with ⟨rfl, ha⟩ | ⟨hx, r, hr, α, y, β, hbody, ha⟩
      · exact .start ha
      · exact .next hr hbody hx (mem_firstOfSymbol_iff_get.mpr ha)
    | tail _ hstep ih =>
      obtain ⟨hx, r, hr, rfl, α, hbody⟩ := hstep
      exact .last hr hbody hx ih

theorem isLeast_follow (g : Grammar) : IsLeast {F | g.FollowSolution F} g.follow.family := by
  constructor
  · constructor
    · exact mem_follow.mpr (.start rfl)
    · exact fun r hr α x y β hbody hx hy =>
        mem_follow.mpr (.next hr hbody hx (mem_firstOfSymbol_iff_get.mpr (.inl ⟨hy, rfl⟩)))
    · exact fun r hr α x y β hbody hx hy a ha =>
        mem_follow.mpr (.next hr hbody hx (mem_firstOfSymbol_iff_get.mpr (.inr ⟨hy, ha⟩)))
    · exact fun r hr α x hbody hx a ha => mem_follow.mpr (.last hr hbody hx (mem_follow.mp ha))
  · intro F hF x a ha
    have hfollows : g.Follows a x := mem_follow.mp ha
    induction hfollows with
    | start ha' => exact ha' ▸ hF.start
    | next hr hbody hx h =>
      rcases mem_firstOfSymbol_iff_get.mp h with ⟨hy, ha'⟩ | ⟨hy, hfirst⟩
      · exact ha' ▸ hF.terminal _ hr _ _ _ _ hbody hx hy
      · exact hF.nonterminal _ hr _ _ _ _ hbody hx hy hfirst
    | last hr hbody hx h ih => exact hF.last _ hr _ _ hbody hx (ih (mem_follow.mpr h))

/-- What the rules ask of the table of FOLLOW sets: the sets of the results
and of the non-terminals in bodies. -/
theorem answered_follow (g : Grammar) :
    Inclusion.Answered false (g.followSystem g.first) g.followKeys := by
  rintro ⟨x, s⟩ hi
  obtain ⟨r, hr, hx, hplace⟩ := mem_followSystem.mp hi
  constructor
  · rcases hplace with ⟨α, y, β, hbody, -⟩ | ⟨α, hbody, -⟩
    · exact mem_followKeys_of_body hr hbody hx
    · exact mem_followKeys_of_body hr hbody hx
  · rintro k rfl
    rcases hplace with ⟨α, y, β, -, hs⟩ | ⟨α, -, hs⟩
    · cases hs
    · cases hs
      exact .inr (mem_keys_followKeys.mpr (.inl ⟨r, hr, rfl⟩))

/-! ## Both -/

/-- FIRST and FOLLOW of any grammar.  The tables have exactly the keys listed,
each with a set of what comes along a chain of rules; they are the least
solutions of their equations; and no pass on the way to them meets a missing
key. -/
theorem sets_least (g : Grammar) :
    ((∀ n, n ∈ g.first.keys ↔ ∃ r ∈ g.rules, r.result = n) ∧
      (∀ n ∈ g.first.keys, ∃ s, g.first.find n = .ok s ∧
        ∀ a, a ∈ s ↔ ∃ m, Relation.ReflTransGen g.Heads n m ∧ g.Begins a m) ∧
      IsLeast {F | g.FirstSolution F} g.first.family ∧
      ∀ t ∈ g.firstKeys :: g.firstPasses,
        Inclusion.pass? true g.firstSystem t = .ok (Inclusion.pass g.firstSystem t)) ∧
    (∀ x, x ∈ g.follow.keys ↔ (∃ r ∈ g.rules, r.result = x) ∨ x ∈ g.nonterminals ∨
      (x.isNonterminal ∧ ∃ r ∈ g.rules, x ∈ r.body) ∨ x = g.start) ∧
    (∀ x ∈ g.follow.keys, ∃ s, g.follow.find x = .ok s ∧
      ∀ a, a ∈ s ↔ ∃ z, ((z = g.start ∧ a = some Symbol.endMark) ∨ g.Precedes z a) ∧
        Relation.ReflTransGen g.Ends z x) ∧
    IsLeast {F | g.FollowSolution F} g.follow.family ∧
    ∀ t ∈ g.followKeys :: g.followPasses,
      Inclusion.pass? false (g.followSystem g.first) t =
        .ok (Inclusion.pass (g.followSystem g.first) t) := by
  refine ⟨⟨fun n => mem_keys_first, ?_, isLeast_first g, ?_⟩, fun x => mem_keys_follow, ?_,
    isLeast_follow g, ?_⟩
  · exact fun n hn => ⟨_, Inclusion.find_eq_ok hn, fun a => mem_first.trans leads_iff_chain⟩
  · exact Inclusion.pass?_of_mem_passes (answered_first g)
  · exact fun x hx => ⟨_, Inclusion.find_eq_ok hx, fun a => mem_follow.trans follows_iff_chain⟩
  · exact Inclusion.pass?_of_mem_passes (answered_follow g)

end Grammar

end LRZero
