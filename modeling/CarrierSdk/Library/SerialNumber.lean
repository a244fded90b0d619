import Mathlib.Data.UInt

/-! Serial numbers of 32 bits as the low bits of positions that are not bounded: what the difference of two numbers
says about the positions they stand for. -/
namespace UInt32
variable {p q n : Nat} {a b : UInt32}

@[simp] theorem ofNat_succ (p : Nat) : ofNat (p + 1) = ofNat p + 1 := ofNat_add p 1

theorem toNat_ofNat_small (h : n < 2 ^ 32) : (ofNat n).toNat = n :=
  toNat_ofNat_of_lt' h

/-- The distance of two positions, around the end. -/
theorem toNat_ofNat_sub (p q : Nat) : ((ofNat p - ofNat q).toNat : Int) = ((p : Int) - q) % 4294967296 := by
  have hp : (ofNat p).toNat = p % 4294967296 := toNat_ofNat'
  have hq : (ofNat q).toNat = q % 4294967296 := toNat_ofNat'
  rw [UInt32.toNat_sub, hp, hq]
  omega

theorem toNat_ofNat_sub_of_le (h : q ≤ p) (hlt : p < q + 2 ^ 32) : (ofNat p - ofNat q).toNat = p - q := by
  have hd := toNat_ofNat_sub p q
  omega

/-- Two near positions with one number are the same. -/
theorem ofNat_inj_near (h : ofNat p = ofNat q) (hlt : p < q + 2 ^ 32) (hlt' : q < p + 2 ^ 32) : p = q := by
  have hd := toNat_ofNat_sub p q
  rw [h, sub_self, UInt32.toNat_zero] at hd
  omega

theorem ofNat_sub_eq (h : q ≤ p) : ofNat p - ofNat q = ofNat (p - q) := by
  rw [← UInt32.toNat_inj]
  have hd := toNat_ofNat_sub p q
  have hsub : (ofNat (p - q)).toNat = (p - q) % 4294967296 := toNat_ofNat'
  omega

theorem ofNat_add_sub (p n : Nat) : ofNat (p + n) - ofNat p = ofNat n := by
  rw [ofNat_add, add_comm, add_sub_cancel_right]

theorem add_ofNat_of_eq (h : a = ofNat p) (n : Nat) : a + ofNat n = ofNat (p + n) := by
  rw [h, ofNat_add]

end UInt32
