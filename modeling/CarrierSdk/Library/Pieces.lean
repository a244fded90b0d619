import Mathlib.Data.List.Basic

/-! A payload cut into pieces of bounded length, none of them empty. -/

universe u

/-- The pieces make up the payload, in order, and each holds between one and n elements. -/
structure Pieces {α : Type u} (n : Nat) (ps : List (List α)) (payload : List α) : Prop where
  flatten : ps.flatten = payload
  bounds : ∀ p ∈ ps, 0 < p.length ∧ p.length ≤ n

namespace Pieces
variable {α : Type u} {n : Nat}

theorem nil : Pieces n ([] : List (List α)) [] := ⟨rfl, by simp⟩

theorem cons {p payload : List α} {ps : List (List α)} (hp : 0 < p.length ∧ p.length ≤ n)
    (h : Pieces n ps payload) : Pieces n (p :: ps) (p ++ payload) := by
  refine ⟨by rw [List.flatten_cons, h.flatten], ?_⟩
  intro q hq
  rcases List.mem_cons.mp hq with rfl | hq
  · exact hp
  · exact h.bounds q hq

/-- A first piece taken off the front of the payload, the rest being cut as well. -/
theorem cut {k : Nat} {payload : List α} {ps : List (List α)}
    (hk : 0 < k ∧ k ≤ payload.length ∧ k ≤ n) (h : Pieces n ps (payload.drop k)) :
    Pieces n (payload.take k :: ps) payload := by
  have ht : (payload.take k).length = k := by rw [List.length_take, Nat.min_eq_left hk.2.1]
  have hp : 0 < (payload.take k).length ∧ (payload.take k).length ≤ n := by
    rw [ht]
    exact ⟨hk.1, hk.2.2⟩
  simpa only [List.take_append_drop] using cons hp h

/-- The last piece. -/
theorem cut_last {k : Nat} {payload : List α} (hk : 0 < k ∧ k ≤ payload.length ∧ k ≤ n)
    (h : ¬ 0 < (payload.drop k).length) : Pieces n [payload.take k] payload := by
  have hd : payload.drop k = [] := List.length_eq_zero_iff.mp (Nat.eq_zero_of_not_pos h)
  exact cut hk (hd ▸ nil)

theorem head {p payload : List α} {ps : List (List α)} (h : Pieces n (p :: ps) payload) :
    0 < p.length ∧ p.length ≤ n := h.bounds p (by simp)

theorem tail {p payload : List α} {ps : List (List α)} (h : Pieces n (p :: ps) payload) :
    Pieces n ps ps.flatten := ⟨rfl, fun q hq => h.bounds q (by simp [hq])⟩

theorem length_eq {p payload : List α} {ps : List (List α)} (h : Pieces n (p :: ps) payload) :
    p.length + ps.flatten.length = payload.length := by
  rw [← h.flatten, List.flatten_cons, List.length_append]

/-- Pieces that fill up a payload leave no room for an empty rest with pieces in it. -/
theorem flatten_pos {p payload : List α} {ps : List (List α)} (h : Pieces n (p :: ps) payload) :
    0 < (p :: ps).flatten.length := by
  rw [h.flatten, ← h.length_eq]
  have := h.head
  omega

end Pieces

/-- How far a prefix of the concatenation reaches into some lists: over so many of them, and with
a rest that is shorter than the next one. -/
structure Reaches {α : Type u} (ps : List (List α)) (s : List α) (n : Nat) (rest : List α) : Prop where
  bound : n ≤ ps.length
  flatten : (ps.take n).flatten ++ rest = s
  short : ∀ p, ps[n]? = some p → rest.length < p.length
  done : n = ps.length → rest = []

namespace Reaches
variable {α : Type u} {ps : List (List α)} {n : Nat} {s t p rest rest' : List α}

theorem zero (hshort : ∀ p, ps[0]? = some p → rest.length < p.length) (hdone : ps = [] → rest = []) :
    Reaches ps rest 0 rest where
  bound := Nat.zero_le _
  flatten := rfl
  short := hshort
  done h := hdone (List.length_eq_zero_iff.mp h.symm)

theorem cons (h : Reaches ps s n rest) (p : List α) : Reaches (p :: ps) (p ++ s) (n + 1) rest where
  bound := Nat.succ_le_succ h.bound
  flatten := by rw [List.take_succ_cons, List.flatten_cons, List.append_assoc, h.flatten]
  short q hq := h.short q hq
  done hn := h.done (Nat.succ.inj hn)

theorem trans {m : Nat} (h : Reaches ps s n rest) (h' : Reaches (ps.drop n) (rest ++ t) m rest') :
    Reaches ps (s ++ t) (n + m) rest' where
  bound := by
    have hm := h'.bound
    have hn := h.bound
    rw [List.length_drop] at hm
    omega
  flatten := by
    rw [List.take_add, List.flatten_append, List.append_assoc, h'.flatten, ← List.append_assoc, h.flatten]
  short q hq := h'.short q (by rwa [List.getElem?_drop])
  done hn := h'.done (by rw [List.length_drop]; omega)

/-- The whole concatenation leaves no rest. -/
theorem whole (h : Reaches ps ps.flatten n rest) : n = ps.length ∧ rest = [] := by
  have hn : n = ps.length := by
    by_contra hne
    have hlt : n < ps.length := Nat.lt_of_le_of_ne h.bound hne
    have hshort := h.short _ (List.getElem?_eq_getElem hlt)
    have hrest : (ps.take n).flatten ++ rest = (ps.take n).flatten ++ (ps.drop n).flatten := by
      rw [h.flatten, ← List.flatten_append, List.take_append_drop]
    have hlen := congrArg List.length (List.append_cancel_left hrest)
    rw [List.drop_eq_getElem_cons hlt, List.flatten_cons, List.length_append] at hlen
    omega
  exact ⟨hn, h.done hn⟩

end Reaches
