import CarrierSdk.Library.Overwrite
import Mathlib.Data.List.Rotate

/-! Memory that is read and written around its end. The rotation of the memory to
a position is what a reader sees from there, so that each copy in two parts is one
copy in the rotated memory. -/
namespace List
variable {α : Type*} {memory bytes : List α} {pos start k n i : Nat}

/-- The element behind a copy is the copied one inside it and the old one elsewhere. -/
theorem getElem?_overwrite (h : pos + bytes.length ≤ memory.length) :
    (memory.overwrite pos bytes)[i]? =
      if pos ≤ i ∧ i < pos + bytes.length then bytes[i - pos]? else memory[i]? := by
  have hlen : (memory.take pos).length = pos := by
    rw [length_take]
    omega
  rw [overwrite, append_assoc]
  rcases Nat.lt_or_ge i pos with hi | hi
  · rw [getElem?_append_left (by omega), getElem?_take_of_lt hi, if_neg (by omega)]
  · rw [getElem?_append_right (by omega), hlen]
    rcases Nat.lt_or_ge i (pos + bytes.length) with hj | hj
    · rw [getElem?_append_left (by omega), if_pos ⟨hi, hj⟩]
    · rw [getElem?_append_right (by omega), if_neg (by omega), getElem?_drop]
      congr 1
      omega

@[simp] theorem overwrite_nil (memory : List α) (pos : Nat) : memory.overwrite pos [] = memory := by
  rw [overwrite, append_nil, length_nil, Nat.add_zero, take_append_drop]

/-- A number below twice the bound wraps at most once. -/
theorem wraps_once (h : i < 2 * n) : i % n = if i < n then i else i - n := by
  split
  · exact Nat.mod_eq_of_lt ‹_›
  · rw [Nat.mod_eq_sub_mod (by omega), Nat.mod_eq_of_lt (by omega)]

/-- Reads some elements from a position on, in two parts where they pass the end. -/
def readAround (memory : List α) (pos n : Nat) : List α :=
  let tail := min n (memory.length - pos)
  (memory.drop pos).take tail ++ memory.take (n - tail)

/-- Writes some elements from a position on, in two parts where they pass the end. -/
def overwriteAround (memory : List α) (pos : Nat) (bytes : List α) : List α :=
  let tail := min bytes.length (memory.length - pos)
  (memory.overwrite pos (bytes.take tail)).overwrite 0 (bytes.drop tail)

theorem readAround_eq (hpos : pos < memory.length) (hn : n ≤ memory.length) :
    memory.readAround pos n = (memory.rotate pos).take n := by
  rw [readAround, rotate_eq_drop_append_take hpos.le, take_append, length_drop, take_take]
  rcases Nat.le_total n (memory.length - pos) with htail | htail
  · rw [Nat.min_eq_left htail, Nat.sub_self, Nat.sub_eq_zero_of_le htail, Nat.zero_min]
  · have hdrop : (memory.drop pos).take n = memory.drop pos := take_of_length_le (by rwa [length_drop])
    have hfull : (memory.drop pos).take (memory.length - pos) = memory.drop pos :=
      take_of_length_le (length_drop ..).le
    rw [Nat.min_eq_right htail, Nat.min_eq_left (by omega), hdrop, hfull]

/-- The elements some places ahead. -/
theorem readAround_ahead (hstart : start < memory.length) (hn : k + n ≤ memory.length) :
    memory.readAround ((start + k) % memory.length) n = ((memory.rotate start).drop k).take n := by
  rw [readAround_eq (Nat.mod_lt _ (by omega)) (by omega), rotate_mod, ← rotate_rotate,
    rotate_eq_drop_append_take (by rw [length_rotate]; omega), take_append_of_le_length]
  rw [length_drop, length_rotate]
  omega

theorem length_overwriteAround (hpos : pos < memory.length) (hn : bytes.length ≤ memory.length) :
    (memory.overwriteAround pos bytes).length = memory.length := by
  have htail : pos + (bytes.take (min bytes.length (memory.length - pos))).length ≤ memory.length := by
    rw [length_take]
    omega
  rw [overwriteAround, length_overwrite]
  · exact length_overwrite htail
  · rw [length_overwrite htail, length_drop]
    omega

/-- A write around the end is one write in what a reader sees. -/
theorem rotate_overwriteAround (hstart : start < memory.length) (hn : k + bytes.length ≤ memory.length) :
    (memory.overwriteAround ((start + k) % memory.length) bytes).rotate start =
      (memory.rotate start).overwrite k bytes := by
  rcases Nat.eq_zero_or_pos bytes.length with hnil | hpos
  · rw [eq_nil_of_length_eq_zero hnil, overwrite_nil, overwriteAround, take_nil, drop_nil, overwrite_nil, overwrite_nil]
  have hat : (start + k) % memory.length < memory.length := Nat.mod_lt _ (by omega)
  have hlen : (memory.overwriteAround ((start + k) % memory.length) bytes).length = memory.length :=
    length_overwriteAround hat (by omega)
  refine ext_getElem? fun i => ?_
  rcases Nat.lt_or_ge i memory.length with hi | hi
  swap
  · rw [getElem?_eq_none (by rw [length_rotate]; omega), getElem?_eq_none]
    rw [length_overwrite (by rw [length_rotate]; exact hn), length_rotate]
    exact hi
  have htail : (start + k) % memory.length +
      (bytes.take (min bytes.length (memory.length - (start + k) % memory.length))).length ≤ memory.length := by
    rw [length_take]
    omega
  rw [getElem?_rotate (by omega), hlen, getElem?_overwrite (by rw [length_rotate]; exact hn),
    getElem?_rotate hi, overwriteAround, getElem?_overwrite, getElem?_overwrite htail]
  · have hik : (i + start) % memory.length = if i + start < memory.length then i + start else i + start - memory.length :=
      wraps_once (by omega)
    have hsk : (start + k) % memory.length = if start + k < memory.length then start + k else start + k - memory.length :=
      wraps_once (by omega)
    simp only [length_drop, length_take, getElem?_drop, getElem?_take]
    generalize (i + start) % memory.length = q at *
    generalize (start + k) % memory.length = p at *
    split_ifs at hik hsk ⊢ <;> first | (exfalso; omega) | rfl | (congr 1; omega)
  · rw [length_overwrite htail, length_drop]
    omega

end List
