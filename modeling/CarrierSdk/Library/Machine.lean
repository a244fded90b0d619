import Mathlib.Data.List.Basic
import Mathlib.Logic.Basic

/-! Machines with partial steps: runs under a guard, invariants of runs, and a
two-run rule for hidden inputs. -/

universe u v w

/-- A step consumes an input and yields the next state and its outputs in order.
It is undefined where the input is not enabled or the program has no defined behaviour. -/
structure Machine (σ : Type u) (ι : Type v) (ο : Type w) where
  step : σ → ι → Option (σ × List ο)

namespace Machine
variable {σ : Type u} {ι : Type v} {ο : Type w}

/-- Runs whose every step meets a guard on its input and the state before it. -/
inductive Run (m : Machine σ ι ο) (G : σ → ι → Prop) : σ → List ι → List ο → σ → Prop
  | nil (s : σ) : Run m G s [] [] s
  | cons {s t u : σ} {i : ι} {is : List ι} {o os : List ο} :
      G s i → m.step s i = some (t, o) → Run m G t is os u → Run m G s (i :: is) (o ++ os) u

/-- The unguarded runs. -/
abbrev Free (_ : σ) (_ : ι) : Prop := True

/-- Executes a list of inputs, undefined as soon as one step is. -/
def exec (m : Machine σ ι ο) : σ → List ι → Option (σ × List ο)
  | s, [] => some (s, [])
  | s, i :: is => (m.step s i).bind fun r => (m.exec r.1 is).map fun q => (q.1, r.2 ++ q.2)

/-- The decidable form of a guard along an execution. -/
def guarded (m : Machine σ ι ο) (g : σ → ι → Bool) : σ → List ι → Bool
  | _, [] => true
  | s, i :: is => g s i && (m.step s i).all fun r => m.guarded g r.1 is

variable {m : Machine σ ι ο} {G : σ → ι → Prop}

theorem exec_cons {s u : σ} {i : ι} {is : List ι} {os : List ο}
    (h : m.exec s (i :: is) = some (u, os)) :
    ∃ t o rest, m.step s i = some (t, o) ∧ m.exec t is = some (u, rest) ∧ os = o ++ rest := by
  simp only [exec, Option.bind_eq_some_iff, Option.map_eq_some_iff, Prod.mk.injEq] at h
  obtain ⟨⟨t, o⟩, hs, ⟨u', rest⟩, he, rfl, rfl⟩ := h
  exact ⟨t, o, rest, hs, he, rfl⟩

/-- An execution is a run of every guard that its steps pass. -/
theorem run_of_exec {g : σ → ι → Bool} (hG : ∀ s i, g s i = true → G s i)
    {s u : σ} {is : List ι} {os : List ο} (h : m.exec s is = some (u, os))
    (hg : m.guarded g s is = true) : Run m G s is os u := by
  induction is generalizing s os with
  | nil =>
    simp only [exec, Option.some.injEq, Prod.mk.injEq] at h
    obtain ⟨rfl, rfl⟩ := h
    exact .nil _
  | cons i is ih =>
    obtain ⟨t, o, rest, hs, he, rfl⟩ := exec_cons h
    simp only [guarded, hs, Option.all_some, Bool.and_eq_true] at hg
    exact .cons (hG _ _ hg.1) hs (ih he hg.2)

theorem free_run_of_exec {s u : σ} {is : List ι} {os : List ο}
    (h : m.exec s is = some (u, os)) : Run m Free s is os u := by
  induction is generalizing s os with
  | nil =>
    simp only [exec, Option.some.injEq, Prod.mk.injEq] at h
    obtain ⟨rfl, rfl⟩ := h
    exact .nil _
  | cons i is ih =>
    obtain ⟨t, o, rest, hs, he, rfl⟩ := exec_cons h
    exact .cons trivial hs (ih he)

/-- A test on the state and the outputs that an execution ends with. -/
theorem exec_any (m : Machine σ ι ο) (s : σ) (is : List ι) (P : σ × List ο → Bool)
    (h : (m.exec s is).any P = true) : ∃ u os, m.exec s is = some (u, os) ∧ P (u, os) = true := by
  cases he : m.exec s is with
  | none =>
    rw [he] at h
    cases h
  | some r => exact ⟨r.1, r.2, rfl, by rwa [he] at h⟩

/-- A run that begins with a given step meets its guard there and in the rest. -/
theorem run_cons_iff {s t u : σ} {i : ι} {is : List ι} {o os : List ο} (hs : m.step s i = some (t, o)) :
    Run m G s (i :: is) (o ++ os) u ↔ G s i ∧ Run m G t is os u := by
  constructor
  · intro h
    generalize hall : o ++ os = all at h
    cases h with
    | @cons _ t' _ _ _ o' os' hg hs' hrest =>
      obtain ⟨rfl, rfl⟩ := Prod.mk.inj (Option.some.inj (hs.symm.trans hs'))
      obtain rfl := List.append_cancel_left hall
      exact ⟨hg, hrest⟩
  · rintro ⟨hg, hrest⟩
    exact .cons hg hs hrest

theorem Run.append {s t u : σ} {is js : List ι} {os ps : List ο}
    (h : Run m G s is os t) (h' : Run m G t js ps u) : Run m G s (is ++ js) (os ++ ps) u := by
  induction h with
  | nil => exact h'
  | cons hg hs _ ih => simpa only [List.cons_append, List.append_assoc] using .cons hg hs (ih h')

theorem Run.mono {G' : σ → ι → Prop} (hG : ∀ s i, G s i → G' s i) {s u : σ} {is : List ι}
    {os : List ο} (h : Run m G s is os u) : Run m G' s is os u := by
  induction h with
  | nil => exact .nil _
  | cons hg hs _ ih => exact .cons (hG _ _ hg) hs ih

/-- What every guarded step preserves, together with the outputs so far, holds at the
end of every guarded run. -/
theorem Run.history {Inv : σ → List ο → Prop}
    (hstep : ∀ {s i t o os}, Inv s os → G s i → m.step s i = some (t, o) → Inv t (os ++ o))
    {s u : σ} {is : List ι} {os : List ο} (h : Run m G s is os u) {before : List ο}
    (hs : Inv s before) : Inv u (before ++ os) := by
  induction h generalizing before with
  | nil => rwa [List.append_nil]
  | cons hg hm _ ih =>
    rw [← List.append_assoc]
    exact ih (hstep hs hg hm)

/-- The same for an invariant of the state alone. -/
theorem Run.invariant {Inv : σ → Prop}
    (hstep : ∀ {s i t o}, Inv s → G s i → m.step s i = some (t, o) → Inv t)
    {s u : σ} {is : List ι} {os : List ο} (h : Run m G s is os u) (hs : Inv s) : Inv u := by
  induction h with
  | nil => exact hs
  | cons hg hm _ ih => exact ih (hstep hs hg hm)

/-- What each guarded step preserves unless its input releases it. -/
theorem Run.persists {Q : σ → Prop} {releases : ι → Prop}
    (hstep : ∀ {s i t o}, Q s → G s i → m.step s i = some (t, o) → Q t ∨ releases i)
    {s u : σ} {is : List ι} {os : List ο} (h : Run m G s is os u) (hs : Q s) :
    Q u ∨ ∃ i ∈ is, releases i := by
  induction h with
  | nil => exact .inl hs
  | cons hg hm _ ih =>
    rcases hstep hs hg hm with ht | hr
    · exact (ih ht).imp_right fun ⟨i, hi, hr⟩ => ⟨i, List.mem_cons_of_mem _ hi, hr⟩
    · exact .inr ⟨_, List.mem_cons_self, hr⟩

section Histories
variable {α : Type u}

/-- Each element of a history is related to those before it. -/
def EachAfter (P : List α → α → Prop) (os : List α) : Prop :=
  ∀ before o after, os = before ++ o :: after → P before o

variable {P : List α → α → Prop} {os : List α}

theorem EachAfter.nil : EachAfter P [] := by
  intro before o after h
  simp at h

theorem EachAfter.snoc (h : EachAfter P os) {o : α} (ho : P os o) : EachAfter P (os ++ [o]) := by
  intro before e after hsplit
  rcases List.eq_nil_or_concat after with rfl | ⟨after, last, rfl⟩
  · obtain ⟨rfl, he⟩ := List.append_inj' hsplit rfl
    rwa [← (List.cons.inj he).1]
  · have hshort : os ++ [o] = (before ++ e :: after) ++ [last] := by simpa using hsplit
    exact h before e after (List.append_inj' hshort rfl).1

/-- Elements that are related to every history do not matter. -/
theorem EachAfter.append (h : EachAfter P os) {l : List α} (hl : ∀ o ∈ l, ∀ before, P before o) :
    EachAfter P (os ++ l) := by
  induction l generalizing os with
  | nil => rwa [List.append_nil]
  | cons o l ih =>
    rw [List.append_cons]
    exact ih (h.snoc (hl o List.mem_cons_self os)) fun e he => hl e (List.mem_cons_of_mem _ he)

variable {β γ : Type u}

/-- Outputs that a projection of the history drops. -/
theorem filterMap_map_none {f : β → Option γ} {g : α → β} (h : ∀ a, f (g a) = none) (l : List α) :
    (l.map g).filterMap f = [] := by
  refine List.filterMap_eq_nil_iff.mpr fun b hb => ?_
  obtain ⟨a, -, rfl⟩ := List.mem_map.mp hb
  exact h a

end Histories

section TwoRuns
variable (low : ι → Bool) (obs : ο → Bool) (R : σ → σ → Prop)

/-- Inputs that are hidden from an observer keep related states related and put out
nothing he sees; visible ones put out the same on related states. -/
structure Unwinding (m : Machine σ ι ο) (G : σ → ι → Prop) : Prop where
  visible : ∀ {s t i s' t' o p}, R s t → low i = true → G s i → G t i →
    m.step s i = some (s', o) → m.step t i = some (t', p) →
      R s' t' ∧ o.filter obs = p.filter obs
  hiddenLeft : ∀ {s t i s' o}, R s t → low i = false → G s i → m.step s i = some (s', o) →
    R s' t ∧ o.filter obs = []
  hiddenRight : ∀ {s t i t' o}, R s t → low i = false → G t i → m.step t i = some (t', o) →
    R s t' ∧ o.filter obs = []

variable {low obs R}

/-- Two runs from related states over inputs that agree once the hidden ones are
dropped show the observer the same outputs. -/
theorem Unwinding.run (h : Unwinding low obs R m G) {s t s' t' : σ} {is js : List ι}
    {os ps : List ο} (hR : R s t) (hi : is.filter low = js.filter low)
    (hs : Run m G s is os s') (ht : Run m G t js ps t') : os.filter obs = ps.filter obs := by
  induction hs generalizing t js ps with
  | nil s =>
    induction ht generalizing s with
    | nil => rfl
    | @cons t _ _ j js o _ hg hm _ ih =>
      have hj : low j = false := by
        by_contra hc
        simp [Bool.not_eq_false _ ▸ hc] at hi
      have hd := h.hiddenRight hR hj hg hm
      rw [List.filter_append, hd.2, List.nil_append]
      exact ih s hd.1 (by simpa [hj] using hi)
  | @cons s s₁ _ i is o os hg hm _ ih =>
    cases hl : low i with
    | false =>
      have hd := h.hiddenLeft hR hl hg hm
      rw [List.filter_append, hd.2, List.nil_append]
      exact ih hd.1 (by simpa [hl] using hi) ht
    | true =>
      -- The second run reaches the same visible input after some hidden ones.
      induction ht with
      | nil => simp [hl] at hi
      | @cons t t₁ _ j js p ps hg' hm' hrest ihr =>
        cases hl' : low j with
        | false =>
          have hd := h.hiddenRight hR hl' hg' hm'
          rw [List.filter_append p, hd.2, List.nil_append]
          exact ihr ih hd.1 (by simpa [hl'] using hi)
        | true =>
          simp only [List.filter_cons, hl, hl', if_true, List.cons.injEq] at hi
          obtain ⟨rfl, hi⟩ := hi
          have hv := h.visible hR hl hg hg' hm hm'
          rw [List.filter_append, List.filter_append, hv.2, ih hv.1 hi hrest]

end TwoRuns
end Machine
