import Mathlib.Data.List.Basic
import Mathlib.Logic.Function.Basic

/-! The stores that a piece of code makes, in their order, and the memory that they leave. -/
namespace StoreLog
variable {α : Type*}

/-- The positions that are written and what is written there, the oldest first. -/
abbrev Stores (α : Type*) := List (Nat × α)

/-- The memory after some stores. -/
def replay (memory : Nat → α) : Stores α → Nat → α
  | [] => memory
  | (pos, a) :: stores => replay (Function.update memory pos a) stores

/-- Every store is below a bound. -/
def Within (stores : Stores α) (len : Nat) : Prop := ∀ s ∈ stores, s.1 < len

/-- Stores whose positions are counted from a later place. -/
def shift (pos : Nat) (stores : Stores α) : Stores α := stores.map fun s => (pos + s.1, s.2)

/-- A block that is stored from a position on. -/
def block (pos : Nat) : List α → Stores α
  | [] => []
  | a :: rest => (pos, a) :: block (pos + 1) rest

theorem replay_append (memory : Nat → α) (first second : Stores α) :
    replay memory (first ++ second) = replay (replay memory first) second := by
  induction first generalizing memory with
  | nil => rfl
  | cons s first ih => exact ih _

/-- What is counted from a later place acts on the memory from there on. -/
theorem replay_shift (memory : Nat → α) (pos : Nat) (stores : Stores α) (i : Nat) :
    replay memory (shift pos stores) (pos + i) = replay (fun j => memory (pos + j)) stores i := by
  induction stores generalizing memory with
  | nil => rfl
  | cons s stores ih =>
    have hupdate : (fun j => Function.update memory (pos + s.1) s.2 (pos + j)) =
        Function.update (fun j => memory (pos + j)) s.1 s.2 := by
      funext j
      by_cases hj : j = s.1
      · subst hj
        rw [Function.update_self, Function.update_self]
      · rw [Function.update_of_ne hj, Function.update_of_ne fun h => hj (Nat.add_left_cancel h)]
    exact (ih _).trans (by rw [hupdate]; rfl)

theorem block_append (pos : Nat) (first second : List α) :
    block pos (first ++ second) = block pos first ++ block (pos + first.length) second := by
  induction first generalizing pos with
  | nil => rfl
  | cons a first ih =>
    rw [List.cons_append, block, block, ih, List.length_cons, List.cons_append]
    congr 3
    omega

/-- The last element of a block stands at its end. -/
theorem replay_block_last (memory : Nat → α) (pos : Nat) (bytes : List α) (last : α) :
    replay memory (block pos (bytes ++ [last])) (pos + bytes.length) = last := by
  rw [block_append, replay_append]
  exact Function.update_self _ _ _

theorem within_block {pos len : Nat} {bytes : List α} (h : pos + bytes.length ≤ len) :
    Within (block pos bytes) len := by
  induction bytes generalizing pos with
  | nil => exact fun s hs => by cases hs
  | cons a bytes ih =>
    rw [List.length_cons] at h
    intro s hs
    rcases List.mem_cons.mp hs with rfl | hs
    · show pos < len
      omega
    · exact ih (by omega) s hs

/-- A block with a last element writes the position of it. -/
theorem block_last_mem (pos : Nat) (bytes : List α) (last : α) :
    (pos + bytes.length, last) ∈ block pos (bytes ++ [last]) := by
  rw [block_append]
  exact List.mem_append_right _ List.mem_cons_self

theorem Within.append {first second : Stores α} {len : Nat} (hfirst : Within first len) (hsecond : Within second len) :
    Within (first ++ second) len := fun s hs => (List.mem_append.mp hs).elim (hfirst s) (hsecond s)

theorem Within.shift {stores : Stores α} {pos len : Nat} (h : Within stores (len - pos)) :
    Within (shift pos stores) len := by
  intro s hs
  obtain ⟨t, ht, rfl⟩ := List.mem_map.mp hs
  have := h t ht
  show pos + t.1 < len
  omega

end StoreLog
