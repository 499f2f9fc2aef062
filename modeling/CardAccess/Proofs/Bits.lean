import CardAccess.Proofs.Bytes
import Mathlib.Tactic.Ring

/-!
# Leading bits

Arithmetic modulo an order works on the first bits of a byte string, as many as the order has.
`leading` counts them off one by one, and `leading_eq` says that the number they make is what a
shift to the right leaves of that of the whole string.
-/

namespace CardAccess
namespace Bytes

/-- The number with these bits, the most significant one first. -/
def ofBits (bits : List Bool) : Nat := bits.foldl (fun value bit => 2 * value + bit.toNat) 0

/-- The bits of a byte string, the most significant one of each byte first. -/
def bits (bytes : Bytes) : List Bool :=
  bytes.flatMap fun byte => (List.range 8).reverse.map byte.toNat.testBit

/-- The number that the first `count` bits make, or all of them where there are fewer. -/
def leading (count : Nat) (bytes : Bytes) : Nat := ofBits (bytes.bits.take count)

/-! ## Numbers of bits -/

theorem foldl_ofBits (bits : List Bool) (value : Nat) :
    bits.foldl (fun value bit => 2 * value + bit.toNat) value
      = value * 2 ^ bits.length + ofBits bits := by
  induction bits generalizing value with
  | nil => simp [ofBits]
  | cons bit bits ih =>
    rw [ofBits, List.foldl_cons, List.foldl_cons, ih, ih (2 * 0 + bit.toNat), List.length_cons,
      Nat.pow_succ]
    ring

theorem ofBits_append (front back : List Bool) :
    ofBits (front ++ back) = ofBits front * 2 ^ back.length + ofBits back := by
  rw [ofBits, List.foldl_append, foldl_ofBits]
  rfl

theorem ofBits_cons (bit : Bool) (bits : List Bool) :
    ofBits (bit :: bits) = bit.toNat * 2 ^ bits.length + ofBits bits := by
  rw [ofBits, List.foldl_cons, foldl_ofBits, Nat.mul_zero, Nat.zero_add]

theorem ofBits_lt (bits : List Bool) : ofBits bits < 2 ^ bits.length := by
  induction bits with
  | nil => decide
  | cons bit bits ih =>
    have hbit : bit.toNat * 2 ^ bits.length ≤ 1 * 2 ^ bits.length :=
      Nat.mul_le_mul_right _ bit.toNat_le
    rw [ofBits_cons, List.length_cons, Nat.pow_succ]
    omega

/-- The low bits of a number make its remainder. -/
theorem ofBits_testBit (n width : Nat) :
    ofBits ((List.range width).reverse.map n.testBit) = n % 2 ^ width := by
  induction width with
  | zero => simp [ofBits, Nat.mod_one]
  | succ width ih =>
    rw [List.range_succ, List.reverse_append, List.reverse_singleton, List.singleton_append,
      List.map_cons, ofBits_cons, ih, List.length_map, List.length_reverse, List.length_range,
      Nat.mod_pow_succ, Nat.toNat_testBit, Nat.mul_comm, Nat.add_comm]

/-! ## Bits of bytes -/

theorem bits_cons (byte : UInt8) (bytes : Bytes) :
    bits (byte :: bytes) = (List.range 8).reverse.map byte.toNat.testBit ++ bits bytes := rfl

theorem length_bits (bytes : Bytes) : bytes.bits.length = 8 * bytes.length := by
  induction bytes with
  | nil => rfl
  | cons byte bytes ih =>
    rw [bits_cons, List.length_append, ih, List.length_map, List.length_reverse,
      List.length_range, List.length_cons]
    omega

/-- The bits of a byte string make its number. -/
theorem ofBits_bits (bytes : Bytes) : ofBits bytes.bits = bytes.toNat := by
  induction bytes with
  | nil => rfl
  | cons byte bytes ih =>
    have hbyte : byte.toNat % 2 ^ 8 = byte.toNat := Nat.mod_eq_of_lt byte.toNat_lt
    rw [bits_cons, ofBits_append, ofBits_testBit, ih, hbyte, length_bits, toNat_cons, Nat.pow_mul]

theorem bits_take (count : Nat) (bytes : Bytes) :
    bits (bytes.take count) = bytes.bits.take (8 * count) := by
  induction bytes generalizing count with
  | nil => simp [bits]
  | cons byte bytes ih =>
    cases count with
    | zero => rfl
    | succ count =>
      have hwidth : 8 * (count + 1)
          = ((List.range 8).reverse.map byte.toNat.testBit).length + 8 * count := by
        rw [List.length_map, List.length_reverse, List.length_range]
        omega
      rw [List.take_succ_cons, bits_cons, bits_cons, ih, hwidth, List.take_length_add_append]

/-! ## The leading ones -/

theorem leading_eq (count : Nat) (bytes : Bytes) :
    leading count bytes = bytes.toNat >>> (8 * bytes.length - count) := by
  have hrest : (bytes.bits.drop count).length = 8 * bytes.length - count := by
    rw [List.length_drop, length_bits]
  have hlt := ofBits_lt (bytes.bits.drop count)
  rw [hrest] at hlt
  rw [← ofBits_bits, ← List.take_append_drop count bytes.bits, ofBits_append, hrest,
    Nat.shiftRight_eq_div_pow, Nat.mul_comm, Nat.mul_add_div (Nat.two_pow_pos _),
    Nat.div_eq_of_lt hlt, Nat.add_zero, leading]

/-- Bytes behind the leading bits do not count. -/
theorem leading_take {count length : Nat} (h : count ≤ 8 * length) (bytes : Bytes) :
    leading count (bytes.take length) = leading count bytes := by
  rw [leading, bits_take, List.take_take, Nat.min_eq_left h, leading]

-- the bits 1010 0101 1100
example : leading 12 [0xA5, 0xC3] = 0xA5C := by decide

end Bytes
end CardAccess
