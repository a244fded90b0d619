import Mathlib.Algebra.Group.Basic

/-! Diffie-Hellman key exchange as a pair of functions that commutes in the two key pairs. -/

universe u v w

/-- The public key of a secret key, and the key that a foreign public key and an own
secret key give. -/
structure KeyExchange (Sk : Type u) (Pk : Type v) (K : Type w) where
  pub : Sk → Pk
  shared : Pk → Sk → K
  comm : ∀ a b, shared (pub a) b = shared (pub b) a

namespace KeyExchange
variable {Sk : Type u} {Pk : Type v} {K : Type w}

/-- Two parties that each hold the other's public key compute one key. -/
theorem agree (dh : KeyExchange Sk Pk K) {a b : Sk} {p q : Pk} (hp : p = dh.pub b)
    (hq : q = dh.pub a) : dh.shared p a = dh.shared q b := by
  rw [hp, hq, dh.comm]

/-- Any commutative group gives an exchange whose key determines the public key. -/
def additive (G : Type u) [AddCommGroup G] : KeyExchange G G G where
  pub := id
  shared p s := p + s
  comm a b := add_comm a b

/-- Over all exchanges, one key only comes from one public key. -/
theorem shared_eq_iff {G : Type u} [AddCommGroup G] {p q s : G} :
    (∀ dh : KeyExchange G G G, dh.shared p s = dh.shared q s) ↔ p = q := by
  constructor
  · intro h
    exact add_right_cancel (h (additive G))
  · rintro rfl dh
    rfl

end KeyExchange
