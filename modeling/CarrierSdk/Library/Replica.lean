import Mathlib.Data.List.Basic

/-! A copy that follows an original: every update of the original is sent to the copy, and updates arrive in
the order they were sent. -/

universe u v w

namespace Replica
variable {σ : Type u} {υ : Type v} {apply : σ → υ → Option σ}

/-- Once the updates in flight have arrived, the copy is like the original. -/
def Follows (apply : σ → υ → Option σ) (copy : σ) (updates : List υ) (original : σ) : Prop :=
  updates.foldlM apply copy = some original

variable {a b : σ} {u : υ} {us : List υ}

theorem follows_nil : Follows apply a [] b ↔ a = b := by
  simp [Follows]

theorem follows_cons : Follows apply a (u :: us) b ↔ ∃ a', apply a u = some a' ∧ Follows apply a' us b := by
  simp [Follows, Option.bind_eq_some_iff]

/-- The original changes and the update is sent. -/
theorem Follows.sent (h : Follows apply a us b) {b' : σ} (hu : apply b u = some b') :
    Follows apply a (us ++ [u]) b' := by
  induction us generalizing a with
  | nil =>
    rw [follows_nil] at h
    subst h
    exact follows_cons.mpr ⟨b', hu, follows_nil.mpr rfl⟩
  | cons x us ih =>
    obtain ⟨a', ha, hrest⟩ := follows_cons.mp h
    exact follows_cons.mpr ⟨a', ha, ih hrest⟩

/-- A part of the state that the updates set whatever the rest is. -/
theorem Follows.foldl {γ : Type w} {f : σ → γ} {g : γ → υ → γ}
    (hf : ∀ a u b, apply a u = some b → f b = g (f a) u) (h : Follows apply a us b) : f b = us.foldl g (f a) := by
  induction us generalizing a with
  | nil => rw [follows_nil.mp h, List.foldl_nil]
  | cons u us ih =>
    obtain ⟨a', ha, hrest⟩ := follows_cons.mp h
    rw [ih hrest, List.foldl_cons, hf a u a' ha]

/-- What the copy and every update have, the original has. -/
theorem Follows.preserves {P : σ → Prop} (hP : ∀ a u b, P a → apply a u = some b → P b)
    (h : Follows apply a us b) (ha : P a) : P b := by
  induction us generalizing a with
  | nil => exact follows_nil.mp h ▸ ha
  | cons u us ih =>
    obtain ⟨a', hu, hrest⟩ := follows_cons.mp h
    exact ih hrest (hP a u a' ha hu)

end Replica
