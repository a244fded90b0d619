import Mathlib.Data.List.AList

/-! Keyed tables that hold at most one value under a key: what a sweep removes and
what is left of a table after an entry has come and gone. -/

universe u v

/-- A table with one value for each key it holds. -/
abbrev Table (κ : Type u) (ν : Type v) := AList (fun _ : κ => ν)

namespace Table
variable {κ : Type u} {ν : Type v}

theorem ext_entries {s t : Table κ ν} (h : s.entries = t.entries) : s = t := AList.ext h

/-- Drops every entry that a test on key and value selects. -/
def sweep (s : Table κ ν) (p : κ → ν → Bool) : Table κ ν where
  entries := s.entries.filter fun e => !p e.1 e.2
  nodupKeys := s.nodupKeys.sublist List.filter_sublist

/-- The values a sweep selects, in the order of the table. -/
def selected (s : Table κ ν) (p : κ → ν → Bool) : List ν :=
  (s.entries.filter fun e => p e.1 e.2).map Sigma.snd

variable [DecidableEq κ]

theorem lookup_sweep (s : Table κ ν) (p : κ → ν → Bool) (k : κ) :
    (s.sweep p).lookup k = (s.lookup k).filter fun v => !p k v := by
  ext v
  rw [Option.filter_eq_some_iff]
  constructor
  · intro h
    have hm := AList.mem_lookup_iff.mp h
    simp only [sweep, List.mem_filter] at hm
    exact ⟨AList.mem_lookup_iff.mpr hm.1, hm.2⟩
  · rintro ⟨h, hp⟩
    apply AList.mem_lookup_iff.mpr
    simp only [sweep, List.mem_filter]
    exact ⟨AList.mem_lookup_iff.mp h, hp⟩

theorem lookup_sweep_some {s : Table κ ν} {p : κ → ν → Bool} {k : κ} {v : ν} :
    (s.sweep p).lookup k = some v ↔ s.lookup k = some v ∧ p k v = false := by
  rw [lookup_sweep, Option.filter_eq_some_iff]
  simp

theorem mem_selected {s : Table κ ν} {p : κ → ν → Bool} {v : ν} :
    v ∈ s.selected p ↔ ∃ k, s.lookup k = some v ∧ p k v = true := by
  simp only [selected, List.mem_map, List.mem_filter]
  constructor
  · rintro ⟨⟨k, w⟩, ⟨hm, hp⟩, rfl⟩
    exact ⟨k, AList.mem_lookup_iff.mpr hm, hp⟩
  · rintro ⟨k, hl, hp⟩
    exact ⟨⟨k, v⟩, ⟨AList.mem_lookup_iff.mp hl, hp⟩, rfl⟩

/-- A mark that no two selected entries share tells the selected values apart. -/
theorem nodup_selected_map {γ : Type*} {s : Table κ ν} {p : κ → ν → Bool} {f : ν → γ}
    (hf : ∀ k k' v v', s.lookup k = some v → s.lookup k' = some v' → p k v = true → p k' v' = true →
      f v = f v' → k = k') : ((s.selected p).map f).Nodup := by
  rw [selected, List.map_map]
  refine List.Nodup.map_on ?_ (s.nodupKeys.sublist List.filter_sublist).nodup
  rintro ⟨k, v⟩ hv ⟨k', v'⟩ hv' he
  have hl : s.lookup k = some v := AList.mem_lookup_iff.mpr (List.mem_filter.mp hv).1
  have hl' : s.lookup k' = some v' := AList.mem_lookup_iff.mpr (List.mem_filter.mp hv').1
  have hk := hf k k' v v' hl hl' (List.mem_filter.mp hv).2 (List.mem_filter.mp hv').2 he
  subst hk
  rw [Option.some.inj (hl.symm.trans hl')]

/-- A mark that stands under one key only is selected once at most. -/
theorem count_selected_le_one {γ : Type*} [DecidableEq γ] {s : Table κ ν} {p : κ → ν → Bool}
    {f : ν → γ} {c : γ} {k₀ : κ} (hf : ∀ k v, s.lookup k = some v → f v = c → k = k₀) :
    ((s.selected p).map f).count c ≤ 1 := by
  have hsel : ((s.selected p).map f).filter (fun y => decide (y = c)) =
      (s.selected fun k v => p k v && decide (f v = c)).map f := by
    simp only [selected, List.filter_map, List.filter_filter, Function.comp_def, Bool.and_comm]
  have hn : ((s.selected fun k v => p k v && decide (f v = c)).map f).Nodup := by
    refine nodup_selected_map fun k k' v v' hl hl' hv hv' _ => ?_
    simp only [Bool.and_eq_true, decide_eq_true_eq] at hv hv'
    rw [hf k v hl hv.2, hf k' v' hl' hv'.2]
  rw [← hsel] at hn
  have hc := List.nodup_iff_count_le_one.mp hn c
  rwa [List.count_filter (by simp)] at hc

/-- An entry that comes under a free key and goes again leaves the table as it was. -/
theorem erase_insert_of_free {s : Table κ ν} {k : κ} (h : s.lookup k = none) (v : ν) :
    (s.insert k v).erase k = s := by
  apply ext_entries
  have hk : k ∉ s := AList.lookup_eq_none.mp h
  rw [AList.insert_of_notMem hk]
  change List.kerase k (⟨k, v⟩ :: s.entries) = s.entries
  have hc : k = (⟨k, v⟩ : Sigma fun _ : κ => ν).fst := rfl
  exact List.kerase_cons_eq hc

theorem erase_of_free {s : Table κ ν} {k : κ} (h : s.lookup k = none) : s.erase k = s := by
  apply ext_entries
  exact List.kerase_of_notMem_keys (AList.lookup_eq_none.mp h)

theorem lookup_insert_eq (s : Table κ ν) (k k' : κ) (v : ν) :
    (s.insert k v).lookup k' = if k' = k then some v else s.lookup k' := by
  split
  · next h => rw [h, AList.lookup_insert]
  · next h => rw [AList.lookup_insert_ne h]

theorem lookup_erase_eq (s : Table κ ν) (k k' : κ) :
    (s.erase k).lookup k' = if k' = k then none else s.lookup k' := by
  split
  · next h => rw [h, AList.lookup_erase]
  · next h => rw [AList.lookup_erase_ne h]

end Table
