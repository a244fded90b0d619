import CarrierSdk.Library.RingBuffer

/-! Reassembly of a stream: the room behind what has been taken of it shows pieces that lie further on, and the pieces
are listed in the order of their positions. -/
namespace Reassembly
variable {α β : Type*}

/-- The room reveals the stream from one position to another, as far as it is not taken yet. -/
def Reveals (room stream : List α) (taken lo hi : Nat) : Prop :=
  ∀ i, taken ≤ i → lo ≤ i → i < hi → room[i - taken]? = stream[i]?

variable {room more stream stream' bytes : List α} {taken lo hi pos n : Nat}

/-- Taking some elements moves the room. -/
theorem Reveals.advance (h : Reveals room stream taken lo hi) (n : Nat) : Reveals (room.drop n) stream (taken + n) lo hi := by
  intro i htaken hlo hhi
  have hi := h i (by omega) hlo hhi
  rw [List.getElem?_drop, ← hi]
  congr 1
  omega

/-- New room appears behind the old. -/
theorem Reveals.extend (h : Reveals room stream taken lo hi) (hroom : hi ≤ taken + room.length) :
    Reveals (room ++ more) stream taken lo hi := by
  intro i htaken hlo hhi
  rw [List.getElem?_append_left (by omega)]
  exact h i htaken hlo hhi

theorem Reveals.grow (h : Reveals room stream taken lo hi) (hfront : stream <+: stream') (hhi : hi ≤ stream.length) :
    Reveals room stream' taken lo hi := by
  intro i htaken hlo hi'
  obtain ⟨rest, rfl⟩ := hfront
  rw [List.getElem?_append_left (by omega)]
  exact h i htaken hlo hi'

section Overwrite
variable (hpos : taken ≤ pos) (hroom : pos - taken + bytes.length ≤ room.length)
  (hbytes : bytes = (stream.drop pos).take bytes.length)
include hpos hroom hbytes

theorem getElem?_room (i : Nat) (hi : taken ≤ i) : (room.overwrite (pos - taken) bytes)[i - taken]? =
    if pos ≤ i ∧ i < pos + bytes.length then stream[i]? else room[i - taken]? := by
  rw [List.getElem?_overwrite hroom]
  have hsame : (pos - taken ≤ i - taken ∧ i - taken < pos - taken + bytes.length) ↔
      pos ≤ i ∧ i < pos + bytes.length := by omega
  rw [if_congr hsame rfl rfl]
  split_ifs with hin
  · have hindex : i - taken - (pos - taken) = i - pos := by omega
    have hstream : pos + (i - pos) = i := by omega
    rw [hindex, hbytes, List.getElem?_take_of_lt (by omega), List.getElem?_drop, hstream]
  · rfl

/-- A piece of the stream that is written at its place shows. -/
theorem reveals_overwrite : Reveals (room.overwrite (pos - taken) bytes) stream taken pos (pos + bytes.length) := by
  intro i htaken hlo hhi
  rw [getElem?_room hpos hroom hbytes i htaken, if_pos ⟨hlo, hhi⟩]

/-- What showed before still does. -/
theorem Reveals.overwrite (h : Reveals room stream taken lo hi) :
    Reveals (room.overwrite (pos - taken) bytes) stream taken lo hi := by
  intro i htaken hlo hhi
  rw [getElem?_room hpos hroom hbytes i htaken]
  split_ifs
  · rfl
  · exact h i htaken hlo hhi

end Overwrite

/-- What shows from the front on is the stream. -/
theorem Reveals.take_eq (h : Reveals room stream taken lo (taken + n)) (hlo : lo ≤ taken) :
    room.take n = (stream.drop taken).take n := by
  refine List.ext_getElem? fun i => ?_
  rcases Nat.lt_or_ge i n with hi | hi
  · have hreveals := h (taken + i) (by omega) (by omega) (by omega)
    rw [Nat.add_sub_cancel_left] at hreveals
    rw [List.getElem?_take_of_lt hi, List.getElem?_take_of_lt hi, List.getElem?_drop, hreveals]
  · rw [List.getElem?_eq_none, List.getElem?_eq_none]
    · rw [List.length_take]
      omega
    · rw [List.length_take]
      omega

/-! Lists in the order of positions. -/

/-- Each element meets a condition at a position, and the positions ascend from a bound. -/
def Ascending (P : Nat → β → Prop) : Nat → List β → Prop
  | _, [] => True
  | lo, x :: l => ∃ pos, lo ≤ pos ∧ P pos x ∧ Ascending P pos l

variable {P Q : Nat → β → Prop} {x : β} {l : List β}

theorem Ascending.mono (h : Ascending P lo l) (hPQ : ∀ pos x, lo ≤ pos → P pos x → Q pos x) : Ascending Q lo l := by
  induction l generalizing lo with
  | nil => trivial
  | cons x l ih =>
    obtain ⟨pos, hlo, hP, hl⟩ := h
    exact ⟨pos, hlo, hPQ pos x hlo hP, ih hl fun q y hq => hPQ q y (hlo.trans hq)⟩

theorem Ascending.of_le (h : Ascending P lo l) {lo' : Nat} (hle : lo' ≤ lo) : Ascending P lo' l := by
  cases l with
  | nil => trivial
  | cons x l =>
    obtain ⟨pos, hlo, hrest⟩ := h
    exact ⟨pos, hle.trans hlo, hrest⟩

/-- No element has a place behind the bound. -/
theorem Ascending.eq_nil (h : Ascending P lo l) (hnone : ∀ pos x, lo ≤ pos → ¬P pos x) : l = [] := by
  cases l with
  | nil => rfl
  | cons x l =>
    obtain ⟨pos, hlo, hP, -⟩ := h
    exact absurd hP (hnone pos x hlo)

end Reassembly
