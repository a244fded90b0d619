import Mathlib.Algebra.BigOperators.Group.List.Basic
import Mathlib.Algebra.GroupWithZero.Nat
import Mathlib.Data.List.GetD

/-! Objects of packed structures, whose members lie one behind the other without padding. Different
structures may be laid over one object. -/
namespace PackedStruct
variable {α : Type*}

structure Member where
  offset : Nat
  width : Nat
  deriving DecidableEq

/-- The member at an index of a structure, which is given by the widths of its members. -/
def member (widths : List Nat) (i : Nat) : Member := ⟨(widths.take i).sum, widths.getD i 0⟩

/-- No byte of one belongs to the other. -/
def Member.Apart (m n : Member) : Prop := m.offset + m.width ≤ n.offset ∨ n.offset + n.width ≤ m.offset

/-- A member ends inside its structure. -/
theorem member_fits {widths : List Nat} {i : Nat} (h : i < widths.length) :
    (member widths i).offset + (member widths i).width ≤ widths.sum := by
  have hsplit : widths.sum = (widths.take (i + 1)).sum + (widths.drop (i + 1)).sum := by
    rw [← List.sum_append, List.take_append_drop]
  rw [member, List.getD_eq_getElem _ _ h, hsplit, List.sum_take_succ _ _ h]
  exact Nat.le_add_right _ _

/-- A member ends where a later one of its structure begins, or before. -/
theorem member_end_le {widths : List Nat} {i j : Nat} (h : i < j) (hj : j < widths.length) :
    (member widths i).offset + (member widths i).width ≤ (member widths j).offset := by
  have hi : i < (widths.take j).length := by
    rw [List.length_take]
    omega
  have hfits := member_fits hi
  have htake : member (widths.take j) i = member widths i := by
    rw [member, member, List.take_take, Nat.min_eq_left (Nat.le_of_lt h), List.getD_eq_getElem _ _ hi,
      List.getElem_take, List.getD_eq_getElem]
  rwa [htake] at hfits

/-- Members of one structure are apart. -/
theorem member_apart {widths : List Nat} {i j : Nat} (hne : i ≠ j) (hi : i < widths.length) (hj : j < widths.length) :
    (member widths i).Apart (member widths j) := by
  rcases Nat.lt_or_gt_of_ne hne with h | h
  · exact .inl (member_end_le h hj)
  · exact .inr (member_end_le h hi)

theorem member_pos {widths : List Nat} (hpos : ∀ w ∈ widths, 0 < w) {i : Nat} (hi : i < widths.length) :
    0 < (member widths i).width := by
  rw [member, List.getD_eq_getElem _ _ hi]
  exact hpos _ (List.getElem_mem hi)

/-- A byte of an object: cleared, or the byte with a number of a stored value. -/
inductive Cell (α : Type*)
  | zero
  | part (a : α) (i : Nat)
  deriving DecidableEq

abbrev Object (α : Type*) := Nat → Cell α

def cleared : Object α := fun _ => .zero

/-- The bytes of a value, or zeros. -/
def cell : Option α → Nat → Cell α
  | none, _ => .zero
  | some a, i => .part a i

def store (o : Object α) (m : Member) (v : Option α) : Object α := fun p =>
  if m.offset ≤ p ∧ p < m.offset + m.width then cell v (p - m.offset) else o p

/-- All bytes of a member are those of a value. -/
def Holds (o : Object α) (m : Member) (v : Option α) : Prop := ∀ i < m.width, o (m.offset + i) = cell v i

instance [DecidableEq α] (o : Object α) (m : Member) (v : Option α) : Decidable (Holds o m v) :=
  inferInstanceAs (Decidable (∀ i < m.width, _))

/-- The value that a byte belongs to. -/
def Cell.value : Cell α → Option α
  | .zero => none
  | .part a _ => some a

/-- What a member holds. Bytes of several values are no value. -/
def load [DecidableEq α] (o : Object α) (m : Member) : Option (Option α) :=
  if Holds o m (o m.offset).value then some (o m.offset).value else none

section Store
variable (o : Object α) {m n : Member} {v : Option α}

theorem holds_store_self (m : Member) (v : Option α) : Holds (store o m v) m v := by
  intro i hi
  rw [store, if_pos ⟨Nat.le_add_right _ _, Nat.add_lt_add_left hi _⟩, Nat.add_sub_cancel_left]

theorem store_apart (h : m.Apart n) (v : Option α) {i : Nat} (hi : i < n.width) :
    store o m v (n.offset + i) = o (n.offset + i) := by
  refine if_neg fun hin => ?_
  rcases h with h | h <;> omega

end Store

section Load
variable [DecidableEq α] {o : Object α} {m n : Member} {v : Option α}

theorem load_eq_some (hm : 0 < m.width) : load o m = some v ↔ Holds o m v := by
  have hfirst : Holds o m v → (o m.offset).value = v := fun h => by
    have hbyte : o m.offset = cell v 0 := h 0 hm
    rw [hbyte]
    cases v <;> rfl
  rw [load, Option.ite_none_right_eq_some, Option.some.injEq]
  exact ⟨fun h => h.2 ▸ h.1, fun h => ⟨(hfirst h).symm ▸ h, hfirst h⟩⟩

theorem load_cleared (hm : 0 < m.width) : load (cleared : Object α) m = some none :=
  (load_eq_some hm).mpr fun _ _ => rfl

theorem load_store_self (hm : 0 < m.width) : load (store o m v) m = some v :=
  (load_eq_some hm).mpr (holds_store_self o m v)

/-- A store leaves the members apart from it as they are. -/
theorem load_store_apart (hn : 0 < n.width) (h : m.Apart n) : load (store o m v) n = load o n := by
  have hholds : ∀ w : Option α, Holds (store o m v) n w ↔ Holds o n w := fun w =>
    forall₂_congr fun i hi => by rw [store_apart o h v hi]
  apply Option.ext
  intro w
  rw [load_eq_some hn, load_eq_some hn, hholds]

end Load

end PackedStruct
