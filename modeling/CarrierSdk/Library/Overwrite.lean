import Mathlib.Data.List.Basic

/-! Writing bytes into a memory area that is a list. -/
namespace List
variable {α : Type*} {memory bytes : List α} {pos : Nat}

/-- The area after a copy of some elements to a position in it. -/
def overwrite (memory : List α) (pos : Nat) (bytes : List α) : List α :=
  memory.take pos ++ bytes ++ memory.drop (pos + bytes.length)

theorem length_overwrite (h : pos + bytes.length ≤ memory.length) :
    (memory.overwrite pos bytes).length = memory.length := by
  simp only [overwrite, length_append, length_take, length_drop]
  omega

/-- What ends where the copy ends. -/
theorem take_overwrite (h : pos ≤ memory.length) :
    (memory.overwrite pos bytes).take (pos + bytes.length) = memory.take pos ++ bytes := by
  have hlen : (memory.take pos ++ bytes).length = pos + bytes.length := by
    rw [length_append, length_take, Nat.min_eq_left h]
  rw [overwrite, ← hlen, take_left]

/-- Nothing behind the copy changes. -/
theorem drop_overwrite (h : pos ≤ memory.length) {k : Nat} (hk : pos + bytes.length ≤ k) :
    (memory.overwrite pos bytes).drop k = memory.drop k := by
  have hlen : (memory.take pos ++ bytes).length = pos + bytes.length := by
    rw [length_append, length_take, Nat.min_eq_left h]
  rw [overwrite, ← Nat.add_sub_cancel' hk, ← drop_drop, ← hlen, drop_left, drop_drop]

end List
