import Mathlib.Data.List.Nodup
import Mathlib.Order.Basic

/-! Longest-match lookup: of all prefixes of a list, the longest one that a partial map knows
decides. Entries in the order of decreasing key length can be searched from the front. -/

universe u v w

variable {α : Type u} {β : Type v}

/-- What a map holds for the longest prefix it knows. -/
def longestMatch (f : List α → Option β) : List α → Option β
  | [] => f []
  | a :: s => (longestMatch (fun p => f (a :: p)) s).or (f [])

/-- No prefix beyond this one is known. -/
def NoLonger (f : List α → Option β) (s p : List α) : Prop :=
  ∀ q, q <+: s → p.length < q.length → f q = none

theorem noLonger_cons {f : List α → Option β} {a : α} {s p : List α} :
    NoLonger f (a :: s) (a :: p) ↔ NoLonger (fun q => f (a :: q)) s p := by
  constructor
  · intro h q hq hlen
    exact h (a :: q) (List.cons_prefix_cons.mpr ⟨rfl, hq⟩) (Nat.succ_lt_succ hlen)
  · intro h q hq hlen
    rcases List.prefix_cons_iff.mp hq with rfl | ⟨t, rfl, ht⟩
    · cases hlen
    · exact h t ht (Nat.lt_of_succ_lt_succ hlen)

theorem longestMatch_eq_none {f : List α → Option β} {s : List α} :
    longestMatch f s = none ↔ ∀ p, p <+: s → f p = none := by
  induction s generalizing f with
  | nil =>
    constructor
    · intro h p hp
      rwa [List.prefix_nil.mp hp]
    · exact fun h => h [] (List.prefix_refl _)
  | cons a s ih =>
    rw [longestMatch, Option.or_eq_none_iff, ih]
    constructor
    · rintro ⟨hlong, hnil⟩ p hp
      rcases List.prefix_cons_iff.mp hp with rfl | ⟨t, rfl, ht⟩
      · exact hnil
      · exact hlong t ht
    · intro h
      exact ⟨fun t ht => h (a :: t) (List.cons_prefix_cons.mpr ⟨rfl, ht⟩), h [] List.nil_prefix⟩

theorem longestMatch_eq_some {f : List α → Option β} {s : List α} {b : β} :
    longestMatch f s = some b ↔ ∃ p, p <+: s ∧ f p = some b ∧ NoLonger f s p := by
  induction s generalizing f with
  | nil =>
    constructor
    · intro h
      refine ⟨[], List.prefix_refl _, h, fun q hq hlen => ?_⟩
      rw [List.prefix_nil.mp hq] at hlen
      cases hlen
    · rintro ⟨p, hp, hf, -⟩
      rwa [List.prefix_nil.mp hp] at hf
  | cons a s ih =>
    rw [longestMatch, Option.or_eq_some_iff, ih, longestMatch_eq_none]
    constructor
    · rintro (⟨p, hp, hf, hmax⟩ | ⟨hnone, hf⟩)
      · exact ⟨a :: p, List.cons_prefix_cons.mpr ⟨rfl, hp⟩, hf, noLonger_cons.mpr hmax⟩
      · refine ⟨[], List.nil_prefix, hf, fun q hq hlen => ?_⟩
        rcases List.prefix_cons_iff.mp hq with rfl | ⟨t, rfl, ht⟩
        · cases hlen
        · exact hnone t ht
    · rintro ⟨p, hp, hf, hmax⟩
      rcases List.prefix_cons_iff.mp hp with rfl | ⟨t, rfl, ht⟩
      · refine .inr ⟨fun t ht => ?_, hf⟩
        exact hmax (a :: t) (List.cons_prefix_cons.mpr ⟨rfl, ht⟩) (Nat.succ_pos _)
      · exact .inl ⟨t, ht, hf, noLonger_cons.mp hmax⟩

/-- Entries with keys of decreasing length, each key once. -/
structure Descending {ε : Type w} (key : ε → List α) (entries : List ε) : Prop where
  lengths : entries.Pairwise fun e e' => (key e').length ≤ (key e).length
  once : (entries.map key).Nodup

variable {ε : Type w} {key : ε → List α} {entries before after : List ε} {e e' : ε} {p q : List α}

/-! Changes at one place keep the order. -/

theorem Descending.replace (h : Descending key (before ++ e :: after)) (he : key e' = key e) :
    Descending key (before ++ e' :: after) := by
  have hkeys : (before ++ e' :: after).map key = (before ++ e :: after).map key := by
    simp only [List.map_append, List.map_cons, he]
  refine ⟨?_, by rw [hkeys]; exact h.once⟩
  have hlengths := h.lengths
  simp only [List.pairwise_append, List.pairwise_cons, List.mem_cons, forall_eq_or_imp, he] at hlengths ⊢
  exact hlengths

theorem Descending.remove (h : Descending key (before ++ e :: after)) : Descending key (before ++ after) := by
  have hsub : (before ++ after).Sublist (before ++ e :: after) :=
    (List.sublist_cons_self e after).append_left before
  exact ⟨h.lengths.sublist hsub, h.once.sublist (hsub.map key)⟩

/-- A new entry stands behind all that are at least as long, and before the shorter ones. -/
theorem Descending.insert (h : Descending key (before ++ after))
    (hbefore : ∀ e' ∈ before, (key e).length ≤ (key e').length ∧ key e' ≠ key e)
    (hafter : ∀ e' ∈ after, (key e').length < (key e).length) :
    Descending key (before ++ e :: after) := by
  obtain ⟨hb, ha, hba⟩ := List.pairwise_append.mp h.lengths
  constructor
  · have hle : ∀ e' ∈ after, (key e').length ≤ (key e).length := fun e' he' =>
      Nat.le_of_lt (hafter e' he')
    refine List.pairwise_append.mpr ⟨hb, List.pairwise_cons.mpr ⟨hle, ha⟩, fun x hx y hy => ?_⟩
    rcases List.mem_cons.mp hy with rfl | hy
    · exact (hbefore x hx).1
    · exact hba x hx y hy
  · rw [List.map_append, List.map_cons, List.nodup_middle, ← List.map_append]
    refine List.nodup_cons.mpr ⟨fun hm => ?_, h.once⟩
    obtain ⟨x, hx, hkey⟩ := List.mem_map.mp hm
    rcases List.mem_append.mp hx with hx | hx
    · exact (hbefore x hx).2 hkey
    · exact absurd (congrArg List.length hkey) (Nat.ne_of_lt (hafter x hx))

theorem Descending.notMem (h : Descending key (before ++ e :: after)) :
    ∀ e' ∈ before ++ after, key e' ≠ key e := by
  have honce := h.once
  rw [List.map_append, List.map_cons, List.nodup_middle, List.nodup_cons, ← List.map_append] at honce
  exact fun e' he' hkey => honce.1 (hkey ▸ List.mem_map_of_mem he')

variable [DecidableEq α]

/-- The entry with a key. -/
def entryAt (key : ε → List α) (entries : List ε) (p : List α) : Option ε :=
  entries.find? fun e => decide (key e = p)

theorem entryAt_eq_some (h : (entries.map key).Nodup) {p : List α} {e : ε} :
    entryAt key entries p = some e ↔ e ∈ entries ∧ key e = p := by
  have hfound : ∀ {e : ε}, entryAt key entries p = some e → e ∈ entries ∧ key e = p := by
    intro e he
    have hkey := List.find?_some he
    exact ⟨List.mem_of_find?_eq_some he, of_decide_eq_true hkey⟩
  constructor
  · exact hfound
  · rintro ⟨hm, rfl⟩
    cases he : entryAt key entries (key e) with
    | none =>
      have hne := List.find?_eq_none.mp he e hm
      exact absurd (decide_eq_true rfl) hne
    | some e' =>
      obtain ⟨hm', hkey⟩ := hfound he
      rw [List.inj_on_of_nodup_map h hm' hm hkey]

theorem entryAt_eq_none {p : List α} : entryAt key entries p = none ↔ ∀ e ∈ entries, key e ≠ p := by
  rw [entryAt, List.find?_eq_none]
  simp

/-- The first entry whose key is a prefix is the longest match. -/
theorem find_eq_longestMatch (h : Descending key entries) (s : List α) :
    (entries.find? fun e => (key e).isPrefixOf s) = longestMatch (entryAt key entries) s := by
  cases hfind : entries.find? fun e => (key e).isPrefixOf s with
  | none =>
    refine (longestMatch_eq_none.mpr fun p hp => entryAt_eq_none.mpr fun e he hkey => ?_).symm
    refine List.find?_eq_none.mp hfind e he ?_
    rwa [List.isPrefixOf_iff_prefix, hkey]
  | some e =>
    obtain ⟨hmatch, before, after, rfl, hbefore⟩ := List.find?_eq_some_iff_append.mp hfind
    refine (longestMatch_eq_some.mpr ⟨key e, List.isPrefixOf_iff_prefix.mp hmatch, ?_, ?_⟩).symm
    · exact (entryAt_eq_some h.once).mpr ⟨by simp, rfl⟩
    · intro q hq hlen
      refine entryAt_eq_none.mpr fun e' he' hkey => ?_
      subst hkey
      -- A longer key would stand before this one, and does not match.
      rcases List.mem_append.mp he' with he' | he'
      · have hno := hbefore e' he'
        rw [Bool.not_eq_true', ← Bool.not_eq_true, List.isPrefixOf_iff_prefix] at hno
        exact hno hq
      · have hle : (key e').length ≤ (key e).length := by
          rcases List.mem_cons.mp he' with rfl | he'
          · exact Nat.le_refl _
          · exact List.rel_of_pairwise_cons (List.pairwise_append.mp h.lengths).2.1 he'
        exact absurd hlen (Nat.not_lt.mpr hle)

theorem entryAt_append : entryAt key (before ++ after) q =
    (entryAt key before q).or (entryAt key after q) := List.find?_append

theorem entryAt_cons : entryAt key (e :: after) q = if q = key e then some e else entryAt key after q := by
  rw [entryAt, List.find?_cons]
  by_cases h : q = key e
  · rw [if_pos h, decide_eq_true h.symm]
  · rw [if_neg h, decide_eq_false (Ne.symm h), entryAt]

theorem entryAt_insert (hbefore : ∀ e' ∈ before, key e' ≠ key e) :
    entryAt key (before ++ e :: after) q = if q = key e then some e else entryAt key (before ++ after) q := by
  rw [entryAt_append, entryAt_append, entryAt_cons]
  by_cases hq : q = key e
  · rw [if_pos hq, if_pos hq, hq, entryAt_eq_none.mpr hbefore, Option.none_or]
  · rw [if_neg hq, if_neg hq]

theorem entryAt_remove (h : Descending key (before ++ e :: after)) :
    entryAt key (before ++ after) q = if q = key e then none else entryAt key (before ++ e :: after) q := by
  by_cases hq : q = key e
  · rw [if_pos hq, hq]
    exact entryAt_eq_none.mpr h.notMem
  · rw [if_neg hq, entryAt_append, entryAt_append, entryAt_cons, if_neg hq]

theorem entryAt_replace (h : Descending key (before ++ e :: after)) (he : key e' = key e) :
    entryAt key (before ++ e' :: after) q =
      if q = key e then some e' else entryAt key (before ++ e :: after) q := by
  have hbefore : ∀ x ∈ before, key x ≠ key e' := fun x hx => he ▸ h.notMem x (List.mem_append_left _ hx)
  by_cases hq : q = key e
  · rw [if_pos hq, entryAt_insert hbefore, if_pos (hq.trans he.symm)]
  · rw [if_neg hq, entryAt_insert hbefore, if_neg (he ▸ hq), entryAt_remove h, if_neg hq]
