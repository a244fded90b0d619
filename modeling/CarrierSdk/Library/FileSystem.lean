import Mathlib.Logic.Function.Basic
import Mathlib.Data.List.Basic

/-! The files of one directory, the calls that change them, and what a crash between
any two of these calls leaves behind. -/

universe u

/-- The contents of every file. A file that does not exist has none. -/
abbrev Directory (φ : Type u) := φ → Option (List UInt8)

/-- A write adds to the end of a file. -/
inductive FileCall (φ : Type u) where
  | create (f : φ)
  | write (f : φ) (bytes : List UInt8)
  | remove (f : φ)
  | rename (f g : φ)

namespace Directory
variable {φ : Type u} [DecidableEq φ]

def call (d : Directory φ) : FileCall φ → Directory φ
  | .create f => Function.update d f (some [])
  | .write f bytes => Function.update d f ((d f).map (· ++ bytes))
  | .remove f => Function.update d f none
  | .rename f g =>
    match d f with
    | none => d
    | some file => Function.update (Function.update d g (some file)) f none

/-- The directory after all calls of a list. -/
def calls (d : Directory φ) (cs : List (FileCall φ)) : Directory φ := cs.foldl call d

/-- A call that a crash interrupts: of a write some bytes have arrived, nothing of the others. -/
def interrupted (d : Directory φ) (arrived : Nat) : FileCall φ → Directory φ
  | .write f bytes => d.call (.write f (bytes.take arrived))
  | _ => d

/-- The directory after a crash, when some calls were made and the next one may have begun. -/
def crash (d : Directory φ) : List (FileCall φ) → Nat → Nat → Directory φ
  | [], _, _ => d
  | c :: _, 0, arrived => d.interrupted arrived c
  | c :: cs, made + 1, arrived => crash (d.call c) cs made arrived

/-- A property of the directory that holds whenever the calls are interrupted. -/
def Always (P : Directory φ → Prop) (d : Directory φ) : List (FileCall φ) → Prop
  | [] => P d
  | c :: cs => P d ∧ (∀ arrived, P (d.interrupted arrived c)) ∧ Always P (d.call c) cs

@[simp] theorem calls_nil (d : Directory φ) : d.calls [] = d := rfl

@[simp] theorem calls_cons (d : Directory φ) (c : FileCall φ) (cs : List (FileCall φ)) :
    d.calls (c :: cs) = (d.call c).calls cs := rfl

theorem calls_append (d : Directory φ) (cs cs' : List (FileCall φ)) :
    d.calls (cs ++ cs') = (d.calls cs).calls cs' := List.foldl_append

/-- A file that was renamed is gone. -/
theorem call_rename_self (d : Directory φ) (f g : φ) : d.call (.rename f g) f = none := by
  cases h : d f with
  | none => simp only [call, h]
  | some file =>
    simp only [call, h]
    exact Function.update_self ..

variable {P Q : Directory φ → Prop} {d : Directory φ} {cs : List (FileCall φ)}

theorem Always.crash (h : Always P d cs) (made arrived : Nat) : P (d.crash cs made arrived) := by
  induction cs generalizing d made with
  | nil => exact h
  | cons c cs ih =>
    cases made with
    | zero => exact h.2.1 arrived
    | succ made => exact ih h.2.2 made

theorem Always.calls (h : Always P d cs) : P (d.calls cs) := by
  induction cs generalizing d with
  | nil => exact h
  | cons c cs ih => exact ih h.2.2

theorem Always.mono (hPQ : ∀ d, P d → Q d) (h : Always P d cs) : Always Q d cs := by
  induction cs generalizing d with
  | nil => exact hPQ d h
  | cons c cs ih => exact ⟨hPQ d h.1, fun arrived => hPQ _ (h.2.1 arrived), ih h.2.2⟩

/-- Calls that change a directory at once cannot be caught halfway. -/
theorem Always.atomic {c : FileCall φ} (h : P d) (hc : ∀ f bytes, c ≠ .write f bytes)
    (hs : Always P (d.call c) cs) : Always P d (c :: cs) := by
  refine ⟨h, fun arrived => ?_, hs⟩
  cases c with
  | write f bytes => exact absurd rfl (hc f bytes)
  | create | remove | rename => exact h

end Directory
