import Mathlib.Data.Finset.Card
import Mathlib.Data.Finset.Dedup
import LRZero.Analysis
import LRZero.Proofs.FirstOccurrences
import LRZero.Proofs.LeastSets

/-!
# Passes only add, and few of them are needed

How long the passes over a system go on is not seen from a single pass, which
may carry a symbol over one key or, where the inclusions stand in a good order,
over many.  It is seen from two passes in a row: a symbol that the second one
brings to some key was brought to some key by the first one.  For where a pass
leaves a symbol alone, every inclusion holds of it, and no later pass has
anything to add (`brings_of_brings_pass`).  So the symbol that the last changing
pass brings has gained a key with every pass before it, and there are at most as
many changing passes as keys (`length_passes_le`).

A pass is logged as changing when one of its inclusions has something new to
bring at its turn, which is the case exactly if the table after it is another
(`changes_iff`).

Main statement: `passes_settle`.
-/

namespace LRZero

namespace SetTable

variable {t u : SetTable}

theorem nodup_keys_ofKeys (ks : List Symbol) : (ofKeys ks).keys.Nodup := by
  have hkeys : (ofKeys ks).keys = ks.eraseDups := by
    simp only [keys, ofKeys, List.map_map, Function.comp_def, List.map_id']
  rw [hkeys]
  exact nodup_eraseDups ks

theorem mem_keys_of_mem_get {a : Option Symbol} {k : Symbol} (h : a ∈ t.get k) : k ∈ t.keys := by
  rw [← isSome_get?]
  cases hk : t.get? k with
  | none =>
    rw [get, hk] at h
    exact absurd h (SortedSet.not_mem_empty a)
  | some v => rfl

/-- A table that lists no key twice is made of its keys and their sets. -/
theorem entries_eq (h : t.keys.Nodup) : t.entries = t.keys.map fun k => (k, t.get k) := by
  have hentry : ∀ e ∈ t.entries, (e.1, t.get e.1) = e := by
    intro e he
    have hlookup : t.get? e.1 = some e.2 := lookup_eq_some_of_mem h he
    rw [get, hlookup]
    rfl
  rw [keys, List.map_map]
  exact (List.map_id _).symm.trans (List.map_congr_left fun e he => (hentry e he).symm)

/-- Two tables with the same distinct keys are equal when their sets are. -/
theorem eq_of_get_eq (hkeys : u.keys = t.keys) (hnodup : t.keys.Nodup)
    (h : ∀ k, u.get k = t.get k) : u = t := by
  have hentries : u.entries = t.entries := by
    rw [entries_eq hnodup, entries_eq (hkeys ▸ hnodup), hkeys]
    exact List.map_congr_left fun k _ => congrArg (k, ·) (h k)
  cases u
  cases t
  exact congrArg SetTable.mk hentries

/-- How many keys hold a symbol. -/
def holders (t : SetTable) (a : Option Symbol) : Nat := t.keys.countP fun k => decide (a ∈ t.get k)

theorem holders_le (t : SetTable) (a : Option Symbol) : t.holders a ≤ t.keys.length :=
  List.countP_le_length

theorem holders_mono {a : Option Symbol} (hkeys : u.keys = t.keys) (h : t ⊆ u) :
    t.holders a ≤ u.holders a := by
  rw [holders, holders, hkeys]
  refine List.countP_mono_left fun k _ ha => ?_
  exact decide_eq_true (h k a (of_decide_eq_true ha))

theorem holders_lt {a : Option Symbol} {k : Symbol} (hkeys : u.keys = t.keys) (h : t ⊆ u)
    (hu : a ∈ u.get k) (ht : a ∉ t.get k) : t.holders a < u.holders a := by
  have hk : k ∈ t.keys := hkeys ▸ mem_keys_of_mem_get hu
  rw [holders, holders, hkeys]
  refine countP_lt_countP (fun j _ ha => ?_) hk (decide_eq_true hu) (decide_eq_false ht)
  exact decide_eq_true (h j a (of_decide_eq_true ha))

end SetTable

namespace Inclusion

variable {sys : List Inclusion} {t u v : SetTable} {a : Option Symbol} {k : Symbol}

/-! ## What a pass brings -/

/-- The pass brings the symbol to some key that did not hold it. -/
def Brings (sys : List Inclusion) (t : SetTable) (a : Option Symbol) : Prop :=
  ∃ k, a ∈ (pass sys t).get k ∧ a ∉ t.get k

/-- A pass that brings nothing changes nothing. -/
theorem pass_eq_self_iff (hnodup : t.keys.Nodup) : pass sys t = t ↔ ∀ a, ¬ Brings sys t a := by
  constructor
  · rintro h a ⟨k, ha, hnot⟩
    rw [h] at ha
    exact hnot ha
  · intro h
    refine SetTable.eq_of_get_eq (keys_pass sys t) hnodup fun k => SortedSet.ext fun a => ?_
    constructor
    · intro ha
      by_contra hnot
      exact h a ⟨k, ha, hnot⟩
    · exact fun ha => subset_pass sys t k a ha

/-- Where all inclusions hold of a symbol, it is owed to no other keys. -/
theorem Owed.mem_of_closed
    (hclosed : ∀ i ∈ sys, i.target ∈ t.keys → a ∈ i.source.value t → a ∈ t.get i.target)
    (h : Owed sys t a k) : a ∈ t.get k := by
  induction h with
  | held ha => exact ha
  | given hi hk ha => exact hclosed _ hi hk ha
  | handed hi hk _ ih => exact hclosed _ hi hk ih

theorem owed_of_mem_pass (h : a ∈ (pass sys t).get k) : Owed sys t a k :=
  (OnlyOwed.pass ⟨rfl, fun _ _ ha => .held ha⟩).2 k a h

/-- A symbol that a pass brings was brought by the pass before it, too. -/
theorem brings_of_brings_pass (h : Brings sys (pass sys t) a) : Brings sys t a := by
  by_contra hnone
  have hback : ∀ j, a ∈ (pass sys t).get j → a ∈ t.get j := by
    intro j ha
    by_contra hnot
    exact hnone ⟨j, ha, hnot⟩
  obtain ⟨k, ha, hnot⟩ := h
  refine hnot (Owed.mem_of_closed (fun i hi hk hvalue => ?_) (owed_of_mem_pass ha))
  rw [keys_pass] at hk
  -- what the source has after the pass it had before, when the pass used the inclusion
  refine value_subset_pass hi hk a ?_
  obtain ⟨target, source⟩ := i
  cases source with
  | given s => exact hvalue
  | key j => exact hback j hvalue

theorem holders_lt_of_brings (h : Brings sys t a) : t.holders a < (pass sys t).holders a := by
  obtain ⟨k, ha, hnot⟩ := h
  exact SetTable.holders_lt (keys_pass sys t) (subset_pass sys t) ha hnot

/-! ## How many passes there are -/

/-- Either the first pass changes nothing, or it brings a symbol that gains a
key with every pass but the last. -/
theorem exists_gaining (sys : List Inclusion) (hnodup : t.keys.Nodup) :
    (passes sys t).length = 1 ∨ ∃ a, Brings sys t a ∧
      t.holders a + (passes sys t).length ≤ (solution sys t).holders a + 1 := by
  induction t using passes.induct sys with
  | case1 t hfix =>
    rw [passes, if_pos hfix]
    exact .inl rfl
  | case2 t hne ih =>
    right
    have hlength : (passes sys t).length = (passes sys (pass sys t)).length + 1 := by
      rw [passes, if_neg hne, List.length_cons]
    rw [hlength, solution_of_changed hne]
    rcases ih ((keys_pass sys t).symm ▸ hnodup) with hone | ⟨a, ha, hle⟩
    · obtain ⟨a, ha⟩ : ∃ a, Brings sys t a := by
        by_contra hnone
        exact hne ((pass_eq_self_iff hnodup).mpr fun a ha => hnone ⟨a, ha⟩)
      have hlt := holders_lt_of_brings ha
      have hmono : (pass sys t).holders a ≤ (solution sys (pass sys t)).holders a :=
        SetTable.holders_mono (keys_solution sys _) (subset_solution sys _)
      exact ⟨a, ha, by omega⟩
    · have hbrings := brings_of_brings_pass ha
      have hlt := holders_lt_of_brings hbrings
      exact ⟨a, hbrings, by omega⟩

/-- There is at most one pass more than there are keys. -/
theorem length_passes_le (hnodup : t.keys.Nodup) : (passes sys t).length ≤ t.keys.length + 1 := by
  rcases exists_gaining sys hnodup with hone | ⟨a, -, hle⟩
  · omega
  · have hbound := (solution sys t).holders_le a
    rw [keys_solution] at hbound
    omega

/-- Each table comes by a pass from the one before it, and only the last of
them is the same as the one before it. -/
theorem pass_of_getElem? {i : Nat} (hu : (t :: passes sys t)[i]? = some u)
    (hv : (passes sys t)[i]? = some v) :
    v = pass sys u ∧ (pass sys u = u ↔ i + 1 = (passes sys t).length) := by
  induction t using passes.induct sys generalizing i with
  | case1 t hfix =>
    rw [passes, if_pos hfix] at hu hv ⊢
    cases i with
    | zero =>
      cases hu
      cases hv
      exact ⟨rfl, fun _ => rfl, fun _ => hfix⟩
    | succ i => cases hv
  | case2 t hne ih =>
    have hpos := List.length_pos_of_ne_nil (passes_ne_nil sys (pass sys t))
    rw [passes, if_neg hne] at hu hv ⊢
    cases i with
    | zero =>
      cases hu
      cases hv
      refine ⟨rfl, fun h => absurd h hne, fun h => ?_⟩
      rw [List.length_cons] at h
      omega
    | succ i =>
      obtain ⟨hpass, hlast⟩ := ih hu hv
      rw [List.length_cons, Nat.add_right_cancel_iff]
      exact ⟨hpass, hlast⟩

/-! ## What is noticed in a pass -/

/-- Has an inclusion, when its turn comes in a pass, something to bring that
its target does not hold? -/
def changes : List Inclusion → SetTable → Bool
  | [], _ => false
  | i :: sys, t =>
    decide ((i.source.value t).filter (fun a => decide (a ∉ t.get i.target)) ≠ ∅) ||
      changes sys (enforce t i)

theorem filter_ne_empty_iff {s : SymbolSet} {p : Option Symbol → Bool} :
    s.filter p ≠ ∅ ↔ ∃ a ∈ s, p a = true := by
  rw [← not_iff_not, not_not, SortedSet.ext_iff]
  simp only [SortedSet.mem_filter, SortedSet.not_mem_empty, iff_false, not_and, not_exists]

/-- Something new is noticed in a pass exactly if the pass changes the table. -/
theorem changes_iff (hnodup : t.keys.Nodup) (hsys : ∀ i ∈ sys, i.target ∈ t.keys) :
    changes sys t = true ↔ pass sys t ≠ t := by
  induction sys generalizing t with
  | nil =>
    constructor
    · intro h
      cases h
    · intro h
      exact absurd rfl h
  | cons i sys ih =>
    have hk := hsys i List.mem_cons_self
    have hkeys : (enforce t i).keys = t.keys := SetTable.keys_absorb t _ _
    have hstep : pass (i :: sys) t = pass sys (enforce t i) := rfl
    rw [changes, Bool.or_eq_true, decide_eq_true_eq, filter_ne_empty_iff, hstep]
    by_cases hnew : ∃ a ∈ i.source.value t, decide (a ∉ t.get i.target) = true
    · obtain ⟨a, ha, hnot⟩ := hnew
      refine ⟨fun _ he => ?_, fun _ => .inl ⟨a, ha, hnot⟩⟩
      -- what the inclusion brings is still there at the end of the pass
      have hmem : a ∈ (enforce t i).get i.target :=
        SetTable.mem_get_absorb.mpr (.inr ⟨rfl, hk, ha⟩)
      have hend := subset_pass sys (enforce t i) i.target a hmem
      rw [he] at hend
      exact of_decide_eq_true hnot hend
    · have hsame : enforce t i = t := by
        refine SetTable.eq_of_get_eq hkeys hnodup fun k => SortedSet.ext fun a => ?_
        constructor
        · intro ha
          rcases SetTable.mem_get_absorb.mp ha with ha | ⟨rfl, -, ha⟩
          · exact ha
          · by_contra hnot
            exact hnew ⟨a, ha, decide_eq_true hnot⟩
        · exact fun ha => SetTable.subset_absorb t _ _ k a ha
      rw [hsame, or_iff_right hnew]
      exact ih hnodup fun j hj => hsys j (List.mem_cons_of_mem _ hj)

/-! ## A run of passes -/

/-- How a run of passes goes that starts with the table `t` and has come to
`tables`.  The table before pass `i` is the one at place `i` of `t :: tables`,
the one after it that at place `i` of `tables`. -/
structure Settles (family : SetFamily) (sys : List Inclusion) (t : SetTable)
    (tables : List SetTable) : Prop where
  ne_nil : tables ≠ []
  keys_eq : ∀ u ∈ tables, u.keys = t.keys
  /-- A pass takes nothing away. -/
  subset : ∀ (i : Nat) (before after : SetTable), (t :: tables)[i]? = some before →
    tables[i]? = some after → after = pass sys before ∧ before ⊆ after
  /-- All passes but the last enlarge a set, notice it and are logged as changing. -/
  changed : ∀ (i : Nat) (before after : SetTable), (t :: tables)[i]? = some before →
    tables[i]? = some after → i + 1 < tables.length →
      (∃ k ∈ t.keys, ∃ a ∈ after.get k, a ∉ before.get k) ∧ changes sys before = true ∧
      (Event.ofPasses family tables)[i]?.map (·.message) =
        some (s!"{family.name} pass {i + 1}: " ++ "changed")
  /-- The last one changes nothing, notices nothing and is logged as stable. -/
  stable : ∀ (i : Nat) (before after : SetTable), (t :: tables)[i]? = some before →
    tables[i]? = some after → i + 1 = tables.length →
      after = before ∧ changes sys before = false ∧
      (Event.ofPasses family tables)[i]?.map (·.message) =
        some (s!"{family.name} pass {i + 1}: " ++ "stable")
  length_le : tables.length ≤ t.keys.toFinset.card + 1

theorem getElem?_ofPasses {family : SetFamily} {tables : List SetTable} {i : Nat}
    (h : tables[i]? = some u) : (Event.ofPasses family tables)[i]? =
      some (.pass family (i + 1) (decide (i + 1 < tables.length))) := by
  rw [Event.ofPasses, List.getElem?_mapIdx, h]
  rfl

theorem settles_passes (family : SetFamily) (hnodup : t.keys.Nodup)
    (hsys : ∀ i ∈ sys, i.target ∈ t.keys) : Settles family sys t (passes sys t) := by
  have hkeys : ∀ {i : Nat} {before : SetTable}, (t :: passes sys t)[i]? = some before →
      before.keys = t.keys := by
    intro i before h
    rcases List.mem_cons.mp (List.mem_of_getElem? h) with rfl | h
    · rfl
    · exact keys_of_mem_passes h
  have hchanges : ∀ {i : Nat} {before : SetTable}, (t :: passes sys t)[i]? = some before →
      (changes sys before = true ↔ pass sys before ≠ before) := by
    intro i before h
    exact changes_iff (hkeys h ▸ hnodup) fun j hj => hkeys h ▸ hsys j hj
  refine ⟨passes_ne_nil sys t, fun u hu => keys_of_mem_passes hu, ?_, ?_, ?_, ?_⟩
  · intro i before after hbefore hafter
    obtain ⟨rfl, -⟩ := pass_of_getElem? hbefore hafter
    exact ⟨rfl, subset_pass sys before⟩
  · intro i before after hbefore hafter hi
    obtain ⟨rfl, hlast⟩ := pass_of_getElem? hbefore hafter
    have hne : pass sys before ≠ before := fun h => Nat.ne_of_lt hi (hlast.mp h)
    refine ⟨?_, (hchanges hbefore).mpr hne, ?_⟩
    · by_contra hnone
      refine hne ((pass_eq_self_iff (hkeys hbefore ▸ hnodup)).mpr ?_)
      rintro a ⟨k, ha, hnot⟩
      have hk := SetTable.mem_keys_of_mem_get ha
      rw [keys_pass, hkeys hbefore] at hk
      exact hnone ⟨k, hk, a, ha, hnot⟩
    · rw [getElem?_ofPasses hafter, decide_eq_true hi]
      rfl
  · intro i before after hbefore hafter hi
    obtain ⟨rfl, hlast⟩ := pass_of_getElem? hbefore hafter
    have hfix := hlast.mpr hi
    refine ⟨hfix, ?_, ?_⟩
    · rw [← Bool.not_eq_true, hchanges hbefore, not_not]
      exact hfix
    · rw [getElem?_ofPasses hafter, decide_eq_false (Nat.not_lt.mpr (Nat.le_of_eq hi.symm))]
      rfl
  · rw [List.toFinset_card_of_nodup hnodup]
    exact length_passes_le hnodup

end Inclusion

namespace Grammar

theorem nodup_keys_firstKeys (g : Grammar) : g.firstKeys.keys.Nodup := SetTable.nodup_keys_ofKeys _

theorem nodup_keys_followKeys (g : Grammar) : g.followKeys.keys.Nodup := by
  rw [followKeys, SetTable.keys_absorb]
  exact SetTable.nodup_keys_ofKeys _

/-- The passes on the way to the FIRST and FOLLOW sets of any grammar.  Tables
keep their keys and only grow from pass to pass; every pass but the last enlarges
a set, and the last changes nothing, which is what the log says of them.  There
is at most one pass more than there are results of rules, or keys of FOLLOW. -/
theorem passes_settle (g : Grammar) :
    Inclusion.Settles .first g.firstSystem g.firstKeys g.firstPasses ∧
    g.firstPasses.length ≤ (g.rules.map (·.result)).toFinset.card + 1 ∧
    Inclusion.Settles .follow (g.followSystem g.first) g.followKeys g.followPasses ∧
    g.followPasses.length ≤ g.follow.keys.toFinset.card + 1 ∧
    g.firstPasses.getLast? = some g.first ∧ g.followPasses.getLast? = some g.follow ∧
    g.analyse.2 = Event.ofPasses .first g.firstPasses ++ Event.ofPasses .follow g.followPasses ++
      g.collection.log := by
  have hfirst : Inclusion.Settles .first g.firstSystem g.firstKeys g.firstPasses :=
    Inclusion.settles_passes .first (nodup_keys_firstKeys g) fun i hi => (answered_first g i hi).1
  have hfollow : Inclusion.Settles .follow (g.followSystem g.first) g.followKeys g.followPasses :=
    Inclusion.settles_passes .follow (nodup_keys_followKeys g) fun i hi =>
      (answered_follow g i hi).1
  refine ⟨hfirst, ?_, hfollow, ?_, List.getLast?_eq_getLast_of_ne_nil _,
    List.getLast?_eq_getLast_of_ne_nil _, rfl⟩
  · have hkeys : (g.rules.map (·.result)).toFinset = g.firstKeys.keys.toFinset := by
      ext x
      rw [List.mem_toFinset, List.mem_toFinset, mem_keys_firstKeys, List.mem_map]
    rw [hkeys]
    exact hfirst.length_le
  · rw [follow, Inclusion.keys_solution]
    exact hfollow.length_le

end Grammar

end LRZero
