import Mathlib.Data.Nat.Digits.Lemmas

/-! Base58 texts of numbers of a fixed number of bytes. -/
namespace Base58

def alphabet : List Char := "123456789ABCDEFGHJKLMNPQRSTUVWXYZabcdefghijkmnopqrstuvwxyz".toList

def digitChar (d : Nat) : Char := alphabet.getD d '1'

def charDigit (c : Char) : Option Nat := alphabet.idxOf? c

/-- The digits of the number behind one character for each leading zero byte. -/
def encode (bytes n : Nat) : List Char :=
  List.replicate (bytes - (Nat.digits 256 n).length) '1' ++
    ((Nat.digits 58 n).map digitChar).reverse

def push (n : Option Nat) (c : Char) : Option Nat :=
  n.bind fun n => (charDigit c).map fun d => d + 58 * n

def decode (t : List Char) : Option Nat := t.foldl push (some 0)

theorem charDigit_digitChar : ∀ d < 58, charDigit (digitChar d) = some d := by
  decide +kernel

private theorem push_ones (k : Nat) : (List.replicate k '1').foldl push (some 0) = some 0 := by
  have h : push (some 0) '1' = some 0 := by decide +kernel
  induction k with
  | zero => rfl
  | succ k ih => rw [List.replicate_succ, List.foldl_cons, h, ih]

private theorem push_digits (l : List Nat) (h : ∀ d ∈ l, d < 58) :
    ((l.map digitChar).reverse).foldl push (some 0) = some (Nat.ofDigits 58 l) := by
  induction l with
  | nil => rfl
  | cons d l ih =>
    have hd := charDigit_digitChar d (h d List.mem_cons_self)
    rw [List.map_cons, List.reverse_cons, List.foldl_append,
      ih fun e he => h e (List.mem_cons_of_mem _ he), Nat.ofDigits_cons]
    simp [push, hd]

theorem decode_encode (bytes n : Nat) : decode (encode bytes n) = some n := by
  rw [decode, encode, List.foldl_append, push_ones,
    push_digits _ fun d hd => Nat.digits_lt_base (by decide) hd, Nat.ofDigits_digits]

theorem digitChar_mem (d : Nat) : digitChar d ∈ alphabet := by
  rw [digitChar, List.getD_eq_getElem?_getD]
  cases h : alphabet[d]? with
  | none =>
    rw [Option.getD_none]
    decide +kernel
  | some c => exact List.mem_of_getElem? h

theorem mem_alphabet_of_mem_encode {bytes n : Nat} {c : Char} (h : c ∈ encode bytes n) : c ∈ alphabet := by
  rw [encode, List.mem_append, List.mem_reverse, List.mem_map] at h
  rcases h with h | ⟨d, -, rfl⟩
  · rw [(List.mem_replicate.mp h).2]
    exact digitChar_mem 0
  · exact digitChar_mem d

/-- A number of 32 bytes has at most 44 digits. -/
theorem length_encode_le {n : Nat} (h : n < 256 ^ 32) : (encode 32 n).length ≤ 44 := by
  have hpow : ∀ l ≤ 32, 256 ^ l ≤ 58 ^ (12 + l) := by decide +kernel
  have hbytes : (Nat.digits 256 n).length ≤ 32 := (Nat.digits_length_le_iff (by decide) n).mpr h
  have hdigits : (Nat.digits 58 n).length ≤ 12 + (Nat.digits 256 n).length := by
    apply (Nat.digits_length_le_iff (by decide) n).mpr
    exact (Nat.lt_base_pow_length_digits (by decide)).trans_le (hpow _ hbytes)
  rw [encode, List.length_append, List.length_replicate, List.length_reverse, List.length_map]
  omega

end Base58
