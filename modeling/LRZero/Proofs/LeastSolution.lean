import LRZero.Inclusion

/-!
# The passes end with the least solution

What every solution of a system must hold, starting from a table, is given by
`Owed`: what a key holds at the start, what a given set brings, and what one
key hands on to another.  The passes end with a table that holds this and
nothing else, although a pass reads the table that it is changing.

Main statements: `keys_solution` and `mem_solution`.
-/

namespace LRZero

namespace SetTable

/-- Every set of the first table is contained in the one of the second. -/
instance : HasSubset SetTable := ⟨fun t u => ∀ k, t.get k ⊆ u.get k⟩

theorem subset_rfl {t : SetTable} : t ⊆ t := fun _ _ h => h

theorem subset_trans {t u v : SetTable} (h : t ⊆ u) (h' : u ⊆ v) : t ⊆ v :=
  fun k a ha => h' k a (h k a ha)

theorem subset_absorb (t : SetTable) (k : Symbol) (s : SymbolSet) : t ⊆ t.absorb k s :=
  fun _ _ h => mem_get_absorb.mpr (.inl h)

theorem get_ofKeys (ks : List Symbol) (k : Symbol) : (ofKeys ks).get k = ∅ := by
  have : ∀ l : List Symbol, ((l.map fun x => (x, (∅ : SymbolSet))).lookup k).getD ∅ = ∅ := by
    intro l
    induction l with
    | nil => rfl
    | cons x l ih =>
      rw [List.map_cons, List.lookup_cons]
      split
      · rfl
      · exact ih
  exact this ks.eraseDups

@[simp] theorem mem_keys_ofKeys {ks : List Symbol} {k : Symbol} : k ∈ (ofKeys ks).keys ↔ k ∈ ks := by
  simp [keys, ofKeys, Function.comp_def]

/-- A key has the set that `get` shows. -/
theorem get?_eq_some {t : SetTable} {k : Symbol} (h : k ∈ t.keys) : t.get? k = some (t.get k) := by
  obtain ⟨v, hv⟩ := Option.isSome_iff_exists.mp ((t.isSome_get? k).mpr h)
  rw [get, hv]
  rfl

end SetTable

namespace Inclusion

variable {sys : List Inclusion} {t u : SetTable}

/-! ## One pass -/

theorem value_mono (h : t ⊆ u) : ∀ source : Source, source.value t ⊆ source.value u
  | .given _ => fun _ ha => ha
  | .key k => h k

@[simp] theorem keys_pass (sys : List Inclusion) (t : SetTable) : (pass sys t).keys = t.keys := by
  induction sys generalizing t with
  | nil => rfl
  | cons i sys ih =>
    show (pass sys (enforce t i)).keys = t.keys
    rw [ih, enforce, SetTable.keys_absorb]

theorem subset_pass (sys : List Inclusion) (t : SetTable) : t ⊆ pass sys t := by
  induction sys generalizing t with
  | nil => exact SetTable.subset_rfl
  | cons i sys ih => exact SetTable.subset_trans (SetTable.subset_absorb t _ _) (ih (enforce t i))

/-- An inclusion that is used in a pass holds afterwards of what its source
had at the start of the pass. -/
theorem value_subset_pass {i : Inclusion} (hi : i ∈ sys) (hk : i.target ∈ t.keys) :
    i.source.value t ⊆ (pass sys t).get i.target := by
  induction sys generalizing t with
  | nil => exact absurd hi List.not_mem_nil
  | cons j sys ih =>
    intro a ha
    rcases List.mem_cons.mp hi with rfl | hi
    · exact subset_pass sys _ _ a (SetTable.mem_get_absorb.mpr (.inr ⟨rfl, hk, ha⟩))
    · have hk' : i.target ∈ (enforce t j).keys := by rwa [enforce, SetTable.keys_absorb]
      exact ih hi hk' a (value_mono (SetTable.subset_absorb t _ _) i.source a ha)

/-! ## The table that the passes end with -/

theorem solution_of_fixed (h : pass sys t = t) : solution sys t = t := by
  have hp : passes sys t = [t] := by rw [passes, if_pos h, h]
  simp only [solution, hp, List.getLast_singleton]

theorem solution_of_changed (h : pass sys t ≠ t) : solution sys t = solution sys (pass sys t) := by
  have hp : passes sys t = pass sys t :: passes sys (pass sys t) := by rw [passes, if_neg h]
  simp only [solution, hp, List.getLast_cons (passes_ne_nil sys (pass sys t))]

/-- What a pass keeps holds of the solution when it holds at the start. -/
theorem solution_induction {P : SetTable → Prop} (hpass : ∀ u, P u → P (pass sys u)) (h : P t) :
    P (solution sys t) := by
  induction t using passes.induct sys with
  | case1 t hfix => rwa [solution_of_fixed hfix]
  | case2 t hne ih =>
    rw [solution_of_changed hne]
    exact ih (hpass t h)

theorem pass_solution (sys : List Inclusion) (t : SetTable) :
    pass sys (solution sys t) = solution sys t := by
  induction t using passes.induct sys with
  | case1 t hfix => rwa [solution_of_fixed hfix]
  | case2 t hne ih => rwa [solution_of_changed hne]

@[simp] theorem keys_solution (sys : List Inclusion) (t : SetTable) :
    (solution sys t).keys = t.keys :=
  solution_induction (fun u hu => (keys_pass sys u).trans hu) rfl

theorem subset_solution (sys : List Inclusion) (t : SetTable) : t ⊆ solution sys t :=
  solution_induction (fun u hu => SetTable.subset_trans hu (subset_pass sys u)) SetTable.subset_rfl

/-- The solution satisfies the inclusions whose target is a key. -/
theorem value_subset_solution {i : Inclusion} (hi : i ∈ sys) (hk : i.target ∈ t.keys) :
    i.source.value (solution sys t) ⊆ (solution sys t).get i.target := by
  have h := value_subset_pass (t := solution sys t) hi (by rwa [keys_solution])
  rwa [pass_solution] at h

/-! ## Leastness -/

/-- `Owed sys t a k`: the set of `k` has to hold `a`, starting from the table
`t`.  That every solution above `t` holds it is `Owed.mem_of_solution`. -/
inductive Owed (sys : List Inclusion) (t : SetTable) (a : Option Symbol) : Symbol → Prop
  | held {k : Symbol} : a ∈ t.get k → Owed sys t a k
  | given {k : Symbol} {s : SymbolSet} : ⟨k, .given s⟩ ∈ sys → k ∈ t.keys → a ∈ s → Owed sys t a k
  | handed {k j : Symbol} : ⟨k, .key j⟩ ∈ sys → k ∈ t.keys → Owed sys t a j → Owed sys t a k

theorem Owed.mem_of_solution {a : Option Symbol} {k : Symbol} (htu : t ⊆ u)
    (hu : ∀ i ∈ sys, i.target ∈ t.keys → i.source.value u ⊆ u.get i.target)
    (h : Owed sys t a k) : a ∈ u.get k := by
  induction h with
  | held ha => exact htu _ a ha
  | given hi hk ha => exact hu _ hi hk a ha
  | handed hi hk _ ih => exact hu _ hi hk a ih

/-- The table has the keys of `t` and holds only what `t` owes. -/
def OnlyOwed (sys : List Inclusion) (t u : SetTable) : Prop :=
  u.keys = t.keys ∧ ∀ k a, a ∈ u.get k → Owed sys t a k

theorem OnlyOwed.enforce (h : OnlyOwed sys t u) : ∀ {i : Inclusion}, i ∈ sys →
    OnlyOwed sys t (enforce u i)
  | ⟨k, source⟩, hi => by
    refine ⟨(SetTable.keys_absorb u k _).trans h.1, ?_⟩
    intro x a ha
    rcases SetTable.mem_get_absorb.mp ha with ha | ⟨rfl, hk, ha⟩
    · exact h.2 x a ha
    · rw [h.1] at hk
      cases source with
      | given s => exact .given hi hk ha
      | key j => exact .handed hi hk (h.2 j a ha)

theorem OnlyOwed.pass (h : OnlyOwed sys t u) : OnlyOwed sys t (pass sys u) := by
  have : ∀ l : List Inclusion, (∀ i ∈ l, i ∈ sys) → ∀ u, OnlyOwed sys t u →
      OnlyOwed sys t (Inclusion.pass l u) := by
    intro l
    induction l with
    | nil => exact fun _ _ hu => hu
    | cons i l ih =>
      intro hl u hu
      exact ih (fun j hj => hl j (List.mem_cons_of_mem _ hj)) _
        (hu.enforce (hl i List.mem_cons_self))
  exact this sys (fun _ hi => hi) u h

/-- The solution holds exactly what every solution must hold. -/
theorem mem_solution {a : Option Symbol} {k : Symbol} :
    a ∈ (solution sys t).get k ↔ Owed sys t a k := by
  constructor
  · have h : OnlyOwed sys t (solution sys t) :=
      solution_induction (fun _ hu => hu.pass) ⟨rfl, fun _ _ ha => .held ha⟩
    exact h.2 k a
  · exact Owed.mem_of_solution (subset_solution sys t) fun _ hi hk => value_subset_solution hi hk

end Inclusion

end LRZero
