import Mathlib.Tactic.Ring
import Mathlib.Data.UInt

/-! Numbers in network byte order. -/
namespace Bytes

/-- The lowest bytes of a number, the most significant one first. -/
def bigEndian : Nat → Nat → List UInt8
  | 0, _ => []
  | width + 1, n => UInt8.ofNat (n / 256 ^ width) :: bigEndian width n

def number (bytes : List UInt8) : Nat := bytes.foldl (fun n b => n * 256 + b.toNat) 0

@[simp] theorem length_bigEndian (width n : Nat) : (bigEndian width n).length = width := by
  induction width with
  | zero => rfl
  | succ width ih => rw [bigEndian, List.length_cons, ih]

private theorem foldl_bigEndian (width n a : Nat) :
    (bigEndian width n).foldl (fun n b => n * 256 + b.toNat) a = a * 256 ^ width + n % 256 ^ width := by
  induction width generalizing a with
  | zero => simp [bigEndian, Nat.mod_one]
  | succ width ih =>
    have hbyte : (UInt8.ofNat (n / 256 ^ width)).toNat = n / 256 ^ width % 256 := UInt8.toNat_ofNat'
    have hmod : n % 256 ^ (width + 1) = n % 256 ^ width + 256 ^ width * (n / 256 ^ width % 256) :=
      Nat.mod_pow_succ
    rw [bigEndian, List.foldl_cons, ih, hbyte, hmod, Nat.pow_succ]
    ring

theorem number_bigEndian (width n : Nat) : number (bigEndian width n) = n % 256 ^ width := by
  rw [number, foldl_bigEndian, Nat.zero_mul, Nat.zero_add]

end Bytes
