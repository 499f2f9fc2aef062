import CardAccess.Curve.Modular
import CardAccess.Proofs.Bytes
import Mathlib.FieldTheory.Finite.Basic

/-!
# Arithmetic modulo a number as arithmetic in its residues

The numbers that `Modular` computes, read as residues, are the products,
differences, powers and, for a prime, inverses of the operands.  What is computed
from numbers is known from its residue as long as it is reduced.
-/

namespace CardAccess
namespace Modular

theorem cast_mod (m a : Nat) : ((a % m : Nat) : ZMod m) = a := ZMod.natCast_mod a m

theorem cast_mul (m a b : Nat) : (mul m a b : ZMod m) = a * b := by
  rw [mul, cast_mod, Nat.cast_mul]

theorem cast_sub {m : Nat} (hm : 0 < m) (a b : Nat) : (sub m a b : ZMod m) = a - b := by
  have hle : b % m ≤ a + m := Nat.le_add_left_of_le (Nat.mod_lt b hm).le
  rw [sub, cast_mod, Nat.cast_sub hle, Nat.cast_add, cast_mod, ZMod.natCast_self, add_zero]

theorem mul_lt {m : Nat} (hm : 0 < m) (a b : Nat) : mul m a b < m := Nat.mod_lt _ hm

theorem sub_lt {m : Nat} (hm : 0 < m) (a b : Nat) : sub m a b < m := Nat.mod_lt _ hm

theorem eq_val_of_cast {m a : Nat} {r : ZMod m} (ha : a < m) (hr : (a : ZMod m) = r) :
    a = r.val := by
  rw [← hr, ZMod.val_natCast_of_lt ha]

/-- The digits that are still to come count for as much as they do in the
exponent. -/
theorem cast_powDigits (m base exponent count power : Nat) :
    (powDigits m base exponent count power : ZMod m)
      = power ^ 2 ^ count * base ^ (exponent % 2 ^ count) := by
  induction count generalizing power with
  | zero => simp [powDigits, Nat.mod_one]
  | succ count ih =>
    have hdouble : (power * power : ZMod m) ^ 2 ^ count = power ^ 2 ^ (count + 1) := by
      rw [← pow_two, ← pow_mul, Nat.pow_succ, Nat.mul_comm 2]
    rw [powDigits, ih, Nat.mod_pow_succ, ← Nat.toNat_testBit]
    cases exponent.testBit count with
    | false =>
      rw [if_neg Bool.false_ne_true, cast_mod, Nat.cast_mul, hdouble]
      rfl
    | true =>
      rw [if_pos rfl, cast_mod, Nat.cast_mul, cast_mod, Nat.cast_mul, mul_pow, hdouble,
        Bool.toNat_true, Nat.mul_one, pow_add]
      ring

theorem cast_pow (m base exponent : Nat) : (pow m base exponent : ZMod m) = base ^ exponent := by
  rw [pow, cast_powDigits, cast_mod, cast_mod, Nat.mod_eq_of_lt (lt_two_pow_bitLength exponent),
    Nat.cast_one, one_pow, one_mul]

variable {p : Nat} [Fact p.Prime]

/-- Two less than the modulus is the exponent of the inverse, because one less is
that of one. -/
theorem cast_inverse {a : Nat} (ha : (a : ZMod p) ≠ 0) :
    (inverse p a : ZMod p) = (a : ZMod p)⁻¹ := by
  have htwo : p - 2 + 1 = p - 1 := by
    have := (Fact.out : p.Prime).two_le
    omega
  apply eq_inv_of_mul_eq_one_left
  rw [inverse, cast_pow, ← pow_succ, htwo, ZMod.pow_card_sub_one_eq_one ha]

theorem cast_eq_zero {a : Nat} (ha : a < p) : (a : ZMod p) = 0 ↔ a = 0 := by
  rw [ZMod.natCast_eq_zero_iff]
  exact ⟨fun h => Nat.eq_zero_of_dvd_of_lt h ha, fun h => h ▸ Nat.dvd_zero p⟩

theorem cast_inj {a b : Nat} (ha : a < p) (hb : b < p) : (a : ZMod p) = b ↔ a = b := by
  rw [ZMod.natCast_eq_natCast_iff', Nat.mod_eq_of_lt ha, Nat.mod_eq_of_lt hb]

end Modular
end CardAccess
