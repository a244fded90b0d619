import Mathlib.Data.List.Basic
import Mathlib.Logic.Function.Basic

/-! Two parties and the messages in flight between them, which arrive in the order they
were sent. -/

universe u

inductive Peer | left | right
  deriving DecidableEq

namespace Peer

def other : Peer → Peer
  | .left => .right
  | .right => .left

@[simp] theorem other_other (p : Peer) : p.other.other = p := by
  cases p <;> rfl

@[simp] theorem other_ne (p : Peer) : p.other ≠ p := by
  cases p <;> decide

@[simp] theorem ne_other (p : Peer) : p ≠ p.other := by
  cases p <;> decide

theorem eq_or_other (p q : Peer) : q = p ∨ q = p.other := by
  cases p <;> cases q <;> simp [other]

theorem other_injective {p q : Peer} (h : p.other = q.other) : p = q := by
  rw [← other_other p, h, other_other]

end Peer

/-- The messages that each party has sent and that have not arrived, oldest first. -/
def Wires (M : Type u) := Peer → List M

namespace Wires
variable {M : Type u}

def empty : Wires M := fun _ => []

def send (w : Wires M) (p : Peer) (ms : List M) : Wires M := Function.update w p (w p ++ ms)

/-- What is left once the oldest message of a party has arrived. -/
def taken (w : Wires M) (p : Peer) : Wires M := Function.update w p (w p).tail

/-- What is left once the oldest message of a party that passes a test has arrived. -/
def takenFirst (w : Wires M) (p : Peer) (f : M → Bool) : Wires M := Function.update w p ((w p).eraseP f)

/-- The messages that pass a test. -/
def only (w : Wires M) (f : M → Bool) : Wires M := fun p => (w p).filter f

@[simp] theorem send_self (w : Wires M) (p : Peer) (ms : List M) : w.send p ms p = w p ++ ms :=
  Function.update_self ..

theorem send_of_ne (w : Wires M) {p q : Peer} (ms : List M) (h : q ≠ p) : w.send p ms q = w q :=
  Function.update_of_ne h ..

@[simp] theorem send_other (w : Wires M) (p : Peer) (ms : List M) : w.send p ms p.other = w p.other :=
  send_of_ne w ms p.other_ne

@[simp] theorem send_nil (w : Wires M) (p : Peer) : w.send p [] = w := by
  funext q
  by_cases h : q = p
  · rw [h, send_self, List.append_nil]
  · exact send_of_ne w [] h

@[simp] theorem taken_self (w : Wires M) (p : Peer) : w.taken p p = (w p).tail :=
  Function.update_self ..

theorem taken_of_ne (w : Wires M) {p q : Peer} (h : q ≠ p) : w.taken p q = w q :=
  Function.update_of_ne h ..

@[simp] theorem takenFirst_self (w : Wires M) (p : Peer) (f : M → Bool) : w.takenFirst p f p = (w p).eraseP f :=
  Function.update_self ..

theorem takenFirst_of_ne (w : Wires M) {p q : Peer} (f : M → Bool) (h : q ≠ p) : w.takenFirst p f q = w q :=
  Function.update_of_ne h ..

theorem mem_send {w : Wires M} {p q : Peer} {ms : List M} {m : M} :
    m ∈ w.send p ms q ↔ m ∈ w q ∨ (q = p ∧ m ∈ ms) := by
  by_cases h : q = p
  · subst h
    simp
  · simp [send_of_ne w ms h, h]

theorem mem_of_taken {w : Wires M} {p q : Peer} {m : M} (h : m ∈ w.taken p q) : m ∈ w q := by
  by_cases hq : q = p
  · subst hq
    rw [taken_self] at h
    exact List.mem_of_mem_tail h
  · rwa [taken_of_ne w hq] at h

theorem only_send (w : Wires M) (p : Peer) (ms : List M) (f : M → Bool) :
    (w.send p ms).only f = (w.only f).send p (ms.filter f) := by
  funext q
  by_cases h : q = p
  · subst h
    simp [only]
  · rw [only, send_of_ne w ms h, send_of_ne _ _ h, only]

/-- A message that the test drops may arrive unseen. -/
theorem only_taken_drop {w : Wires M} {p : Peer} {m : M} {rest : List M} {f : M → Bool}
    (h : w p = m :: rest) (hf : f m = false) : (w.taken p).only f = w.only f := by
  funext q
  by_cases hq : q = p
  · subst hq
    simp [only, h, hf]
  · rw [only, taken_of_ne w hq, only]

/-- A message that passes the test is the oldest of those that pass it. -/
theorem only_taken_keep {w : Wires M} {p : Peer} {m : M} {rest : List M} {f : M → Bool}
    (h : w p = m :: rest) (hf : f m = true) :
    (w.taken p).only f = (w.only f).taken p ∧ ∃ l, w.only f p = m :: l := by
  refine ⟨?_, rest.filter f, ?_⟩
  · funext q
    by_cases hq : q = p
    · subst hq
      simp [only, h, hf]
    · rw [only, taken_of_ne w hq, taken_of_ne _ hq, only]
  · rw [only, h, List.filter_cons_of_pos hf]

/-- The messages of another kind stay when the first of one kind has arrived. -/
theorem only_takenFirst_of_disjoint (w : Wires M) (p : Peer) {f g : M → Bool} (h : ∀ m, f m = true → g m = false) :
    (w.takenFirst p f).only g = w.only g := by
  funext q
  by_cases hq : q = p
  · subst hq
    rw [only, takenFirst_self, only]
    induction w q with
    | nil => rfl
    | cons m ms ih =>
      cases hm : f m with
      | false => rw [List.eraseP_cons_of_neg (by simp [hm]), List.filter_cons, List.filter_cons, ih]
      | true => rw [List.eraseP_cons_of_pos hm, List.filter_cons_of_neg (by simp [h m hm])]
  · rw [only, takenFirst_of_ne w f hq, only]

theorem only_takenFirst_self (w : Wires M) (p : Peer) (f : M → Bool) :
    (w.takenFirst p f).only f = (w.only f).taken p := by
  funext q
  by_cases hq : q = p
  · subst hq
    rw [only, takenFirst_self, taken_self, only]
    induction w q with
    | nil => rfl
    | cons m ms ih =>
      cases hm : f m with
      | false =>
        rw [List.eraseP_cons_of_neg (by simp [hm]), List.filter_cons_of_neg (by simp [hm]),
          List.filter_cons_of_neg (by simp [hm]), ih]
      | true => rw [List.eraseP_cons_of_pos hm, List.filter_cons_of_pos hm, List.tail_cons]
  · rw [only, takenFirst_of_ne w f hq, taken_of_ne _ hq, only]

/-- The oldest message that passes a test. -/
theorem only_of_find (w : Wires M) (p : Peer) {f : M → Bool} {m : M} (h : (w p).find? f = some m) :
    ∃ l, w.only f p = m :: l := by
  have hhead : (w.only f p).head? = some m := List.head?_filter.trans h
  exact ⟨_, (List.cons_head?_tail hhead).symm⟩

end Wires
