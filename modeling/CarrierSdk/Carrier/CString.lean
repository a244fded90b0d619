import Mathlib.Data.List.Basic
import Mathlib.Data.List.TakeWhile
import Mathlib.Data.UInt

/-! Zero-terminated strings and the bounded buffers that the code copies them into. -/
namespace CarrierSdk

/-- A C string without its terminator, so none of its bytes is zero. -/
structure CString where
  bytes : List UInt8
  noNul : (0 : UInt8) ∉ bytes
  deriving DecidableEq

namespace CString

def strlen (s : CString) : Nat := s.bytes.length

def empty : CString := ⟨[], by simp⟩

def strcat (s t : CString) : CString :=
  ⟨s.bytes ++ t.bytes, by simp [s.noNul, t.noNul]⟩

/-- strcpy into an array of the given size. The terminator needs a byte of its own;
where it does not fit, the copy has no defined behaviour. -/
def strcpy (size : Nat) (s : CString) : Option CString :=
  if s.strlen < size then some s else none

theorem zero_notMem_takeWhile (memory : List UInt8) : 0 ∉ memory.takeWhile (· ≠ 0) := by
  intro h
  simpa using List.mem_takeWhile_imp h

/-- The string that starts a memory area, which is undefined where no byte of it is zero. -/
def scan (memory : List UInt8) : Option CString :=
  if 0 ∈ memory then some ⟨memory.takeWhile (· ≠ 0), zero_notMem_takeWhile memory⟩ else none

@[simp] theorem strlen_empty : empty.strlen = 0 := rfl

@[simp] theorem strlen_strcat (s t : CString) : (s.strcat t).strlen = s.strlen + t.strlen := by
  simp [strlen, strcat]

theorem ext_bytes {s t : CString} (h : s.bytes = t.bytes) : s = t := by
  cases s; cases t; cases h; rfl

theorem scan_terminated (s : CString) (rest : List UInt8) : scan (s.bytes ++ 0 :: rest) = some s := by
  have hall : ∀ b ∈ s.bytes, decide (b ≠ 0) = true := fun b hb => decide_eq_true fun h => s.noNul (h ▸ hb)
  rw [scan, if_pos (by simp)]
  congr 1
  apply ext_bytes
  simp only [List.takeWhile_append_of_pos hall]
  simp

/-- A string and its terminator begin the area that it was found in. -/
theorem scan_begins {memory : List UInt8} {s : CString} (h : scan memory = some s) :
    memory.take (s.strlen + 1) = s.bytes ++ [0] := by
  unfold scan at h
  split at h <;> cases h
  next hmem =>
    induction memory with
    | nil => cases hmem
    | cons b memory ih =>
      by_cases hb : b = 0
      · subst hb
        rfl
      · have hrest : 0 ∈ memory := (List.mem_cons.mp hmem).resolve_left fun h => hb h.symm
        simpa [CString.strlen, hb] using ih hrest

theorem scan_eq_none {memory : List UInt8} : scan memory = none ↔ (0 : UInt8) ∉ memory := by
  unfold scan
  split <;> simp_all

/-- What begins an area begins a part of it that holds the terminator as well. -/
theorem scan_take {memory : List UInt8} {s : CString} (h : scan memory = some s) (n : Nat) :
    scan (memory.take n) = if s.strlen < n then some s else none := by
  have hbegins : memory = s.bytes ++ 0 :: memory.drop (s.strlen + 1) := by
    rw [List.append_cons, ← scan_begins h, List.take_append_drop]
  have hlen : s.bytes.length = s.strlen := rfl
  split
  · next hn =>
    obtain ⟨k, rfl⟩ : ∃ k, n = s.strlen + (k + 1) := ⟨n - s.strlen - 1, by omega⟩
    rw [hbegins, ← hlen, List.take_length_add_append, List.take_succ_cons, scan_terminated]
  · next hn =>
    rw [scan_eq_none, hbegins, List.take_append_of_le_length (by omega)]
    exact fun hz => s.noNul (List.mem_of_mem_take hz)

theorem strcpy_eq_some {size : Nat} {s t : CString} :
    strcpy size s = some t ↔ s.strlen < size ∧ s = t := by
  unfold strcpy
  split <;> simp_all

theorem strcpy_fits {size : Nat} {s : CString} (h : s.strlen < size) : strcpy size s = some s :=
  strcpy_eq_some.mpr ⟨h, rfl⟩

end CString

/-- The base58 text of a 32-byte public key. Such a text has at most 44 characters and
the base58 alphabet has no colon. -/
structure UserId where
  text : CString
  short : text.strlen ≤ 44
  noColon : (58 : UInt8) ∉ text.bytes
  deriving DecidableEq

theorem UserId.ext_text {a b : UserId} (h : a.text = b.text) : a = b := by
  cases a; cases b; cases h; rfl

end CarrierSdk
