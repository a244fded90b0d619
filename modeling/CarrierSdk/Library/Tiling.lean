import Mathlib.Algebra.BigOperators.Group.List.Basic
import Mathlib.Algebra.GroupWithZero.Nat

/-! Pieces that lie one behind the other from a position to another, each meeting a condition on where it lies. -/
namespace Tiling
variable {α : Type*} (len : α → Nat) (P : Nat → α → Prop)

def Tiles : Nat → List α → Nat → Prop
  | lo, [], hi => lo = hi
  | lo, x :: xs, hi => P lo x ∧ Tiles (lo + len x) xs hi

variable {len P} {lo hi mid : Nat} {x y : α} {l l' : List α}

@[simp] theorem tiles_nil : Tiles len P lo [] hi ↔ lo = hi := Iff.rfl

@[simp] theorem tiles_cons : Tiles len P lo (x :: l) hi ↔ P lo x ∧ Tiles len P (lo + len x) l hi := Iff.rfl

theorem Tiles.hi_eq (h : Tiles len P lo l hi) : hi = lo + (l.map len).sum := by
  induction l generalizing lo with
  | nil => exact h.symm
  | cons x l ih =>
    have htail := ih h.2
    rw [List.map_cons, List.sum_cons]
    omega

theorem tiles_append : Tiles len P lo (l ++ l') hi ↔ ∃ mid, Tiles len P lo l mid ∧ Tiles len P mid l' hi := by
  induction l generalizing lo with
  | nil =>
    constructor
    · intro h
      exact ⟨lo, rfl, h⟩
    · rintro ⟨mid, rfl, h⟩
      exact h
  | cons x l ih =>
    rw [List.cons_append, tiles_cons, ih]
    constructor
    · rintro ⟨hx, mid, hl, hl'⟩
      exact ⟨mid, ⟨hx, hl⟩, hl'⟩
    · rintro ⟨mid, ⟨hx, hl⟩, hl'⟩
      exact ⟨hx, mid, hl, hl'⟩

theorem tiles_singleton : Tiles len P lo [x] hi ↔ P lo x ∧ lo + len x = hi := Iff.rfl

theorem Tiles.snoc (h : Tiles len P lo l mid) (hx : P mid x) (hhi : mid + len x = hi) : Tiles len P lo (l ++ [x]) hi :=
  tiles_append.mpr ⟨mid, h, hx, hhi⟩

theorem Tiles.lo_le (h : Tiles len P lo l hi) : lo ≤ hi := by
  have hhi := h.hi_eq
  omega

/-- A condition that holds wherever another does on the range. -/
theorem Tiles.mono {Q : Nat → α → Prop} (h : Tiles len P lo l hi)
    (hPQ : ∀ p x, x ∈ l → P p x → lo ≤ p → p + len x ≤ hi → Q p x) : Tiles len Q lo l hi := by
  induction l generalizing lo with
  | nil => exact h
  | cons x l ih =>
    have hle := h.2.lo_le
    refine ⟨hPQ lo x List.mem_cons_self h.1 (Nat.le_refl lo) hle, ih h.2 ?_⟩
    intro p y hy hP hlo hhi
    exact hPQ p y (List.mem_cons_of_mem x hy) hP (by omega) hhi

/-- The place of a piece. -/
theorem Tiles.place (h : Tiles len P lo l hi) (hx : x ∈ l) : ∃ p, P p x ∧ lo ≤ p ∧ p + len x ≤ hi := by
  obtain ⟨before, after, rfl⟩ := List.append_of_mem hx
  obtain ⟨mid, hbefore, hP, hafter⟩ := tiles_append.mp h
  exact ⟨mid, hP, hbefore.lo_le, hafter.lo_le⟩

/-- One piece is replaced by pieces that cover the same. -/
theorem Tiles.replace {m : List α} (h : Tiles len P lo (l ++ x :: l') hi)
    (hx : ∀ p, P p x → lo ≤ p → Tiles len P p m (p + len x)) : Tiles len P lo (l ++ (m ++ l')) hi := by
  obtain ⟨mid, hl, hP, hl'⟩ := tiles_append.mp h
  exact tiles_append.mpr ⟨mid, hl, tiles_append.mpr ⟨mid + len x, hx mid hP hl.lo_le, hl'⟩⟩

end Tiling
