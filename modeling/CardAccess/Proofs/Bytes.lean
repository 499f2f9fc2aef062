import CardAccess.Bytes
import Mathlib.Algebra.Ring.Nat
import Mathlib.Data.List.Induction

/-!
# Numbers in byte strings

`fixed` and `toNat` undo each other: `fixed` keeps the low `width` bytes of a
number, and a byte string is the fixed form of its own number.  Both directions
follow from what one byte more at the end does to either of them.  The last two
sections are about taking a byte string apart.
-/

namespace CardAccess
namespace Bytes

/-- What holds of the byte of each number below 256 holds of every byte. -/
theorem forall_byte {p : UInt8 → Prop} (h : ∀ n : Fin 256, p (UInt8.ofNat n)) (b : UInt8) :
    p b := by
  have hb := h ⟨b.toNat, b.toNat_lt⟩
  rwa [UInt8.ofNat_toNat] at hb

end Bytes

/-! ## How many digits a number has -/

theorem lt_two_pow_bitLength (n : Nat) : n < 2 ^ bitLength n := by
  rw [bitLength]
  split
  · next hzero => simp [hzero]
  · exact Nat.lt_log2_self

theorem lt_pow_byteLength (n : Nat) : n < 256 ^ byteLength n := by
  have hbits : bitLength n ≤ 8 * byteLength n := by
    rw [byteLength]
    omega
  calc n < 2 ^ bitLength n := lt_two_pow_bitLength n
    _ ≤ 2 ^ (8 * byteLength n) := Nat.pow_le_pow_right (by decide) hbits
    _ = 256 ^ byteLength n := by rw [Nat.pow_mul]

namespace Bytes

/-! ## Reading -/

theorem foldl_toNat (bytes : Bytes) (value : Nat) :
    bytes.foldl (fun value byte => value * 256 + byte.toNat) value
      = value * 256 ^ bytes.length + bytes.toNat := by
  induction bytes generalizing value with
  | nil => simp [toNat]
  | cons byte bytes ih =>
    have hrest := ih (0 * 256 + byte.toNat)
    rw [toNat, List.foldl_cons, List.foldl_cons, ih, hrest, List.length_cons, Nat.pow_succ,
      Nat.zero_mul, Nat.zero_add, Nat.add_mul, Nat.mul_comm (256 ^ bytes.length), Nat.mul_assoc,
      Nat.add_assoc]

@[simp] theorem toNat_nil : toNat [] = 0 := rfl

theorem toNat_singleton (byte : UInt8) : toNat [byte] = byte.toNat := by
  show 0 * 256 + byte.toNat = byte.toNat
  omega

theorem toNat_cons (byte : UInt8) (bytes : Bytes) :
    toNat (byte :: bytes) = byte.toNat * 256 ^ bytes.length + toNat bytes := by
  rw [toNat, List.foldl_cons, foldl_toNat, Nat.zero_mul, Nat.zero_add]

theorem toNat_onto_cons (number : Nat) (byte : UInt8) (bytes : Bytes) :
    (number * 256 + byte.toNat) * 256 ^ bytes.length + toNat bytes
      = number * 256 ^ (bytes.length + 1) + toNat (byte :: bytes) := by
  rw [toNat_cons, Nat.pow_succ, Nat.add_mul, Nat.mul_assoc, Nat.mul_comm 256, Nat.add_assoc]

theorem toNat_append (front back : Bytes) :
    toNat (front ++ back) = toNat front * 256 ^ back.length + toNat back := by
  rw [toNat, List.foldl_append, foldl_toNat]
  rfl

theorem toNat_concat (bytes : Bytes) (byte : UInt8) :
    toNat (bytes ++ [byte]) = toNat bytes * 256 + byte.toNat := by
  rw [toNat_append, toNat_singleton, List.length_singleton, Nat.pow_one]

theorem toNat_lt (bytes : Bytes) : toNat bytes < 256 ^ bytes.length := by
  induction bytes with
  | nil => decide
  | cons byte bytes ih =>
    have hbyte := byte.toNat_lt
    have hmul : byte.toNat * 256 ^ bytes.length ≤ 255 * 256 ^ bytes.length :=
      Nat.mul_le_mul_right _ (by omega)
    rw [toNat_cons, List.length_cons, Nat.pow_succ]
    omega

theorem toNat_drop (bytes : Bytes) (count : Nat) :
    toNat (bytes.drop count) = toNat bytes % 256 ^ (bytes.drop count).length := by
  have hsplit := toNat_append (bytes.take count) (bytes.drop count)
  rw [List.take_append_drop] at hsplit
  rw [hsplit, Nat.mul_add_mod', Nat.mod_eq_of_lt (toNat_lt _)]

theorem toNat_zeros (count : Nat) : toNat (zeros count) = 0 := by
  induction count with
  | zero => rfl
  | succ count ih =>
    have hzero : toNat (zeros (count + 1)) = 0 * 256 ^ (zeros count).length + toNat (zeros count) :=
      toNat_cons 0 (zeros count)
    rw [hzero, ih, Nat.zero_mul]

/-! ## Writing -/

theorem prependFixed_eq (width n : Nat) (tail : Bytes) :
    prependFixed width n tail = fixed width n ++ tail := by
  induction width generalizing n tail with
  | zero => rfl
  | succ width ih =>
    rw [fixed, prependFixed, prependFixed, ih, ih _ [_], List.append_assoc, List.singleton_append]

theorem fixed_zero (n : Nat) : fixed 0 n = [] := rfl

theorem fixed_succ (width n : Nat) :
    fixed (width + 1) n = fixed width (n / 256) ++ [UInt8.ofNat (n % 256)] := by
  rw [fixed, prependFixed, prependFixed_eq]

@[simp] theorem length_fixed (width n : Nat) : (fixed width n).length = width := by
  induction width generalizing n with
  | zero => rfl
  | succ width ih => rw [fixed_succ, List.length_append, ih, List.length_singleton]

theorem toNat_ofNat_mod (n : Nat) : (UInt8.ofNat (n % 256)).toNat = n % 256 := by
  rw [UInt8.toNat_ofNat']
  omega

/-- What is read back is the number, as far as it fits. -/
theorem toNat_fixed (width n : Nat) : toNat (fixed width n) = n % 256 ^ width := by
  induction width generalizing n with
  | zero => rw [Nat.pow_zero, Nat.mod_one, fixed_zero, toNat_nil]
  | succ width ih =>
    rw [fixed_succ, toNat_concat, ih, toNat_ofNat_mod, Nat.pow_succ, Nat.mul_comm (256 ^ width),
      Nat.mod_mul]
    omega

theorem toNat_fixed_of_lt {width n : Nat} (h : n < 256 ^ width) : toNat (fixed width n) = n := by
  rw [toNat_fixed, Nat.mod_eq_of_lt h]

theorem toNat_minimal (n : Nat) : toNat (minimal n) = n :=
  toNat_fixed_of_lt (Nat.lt_of_lt_of_le (lt_pow_byteLength n)
    (Nat.pow_le_pow_right (by decide) (Nat.le_max_right _ _)))

theorem fixed_toNat (bytes : Bytes) : fixed bytes.length (toNat bytes) = bytes := by
  induction bytes using List.reverseRecOn with
  | nil => rfl
  | append_singleton bytes byte ih =>
    have hbyte := byte.toNat_lt
    have hquot : (toNat bytes * 256 + byte.toNat) / 256 = toNat bytes := by omega
    have hrem : (toNat bytes * 256 + byte.toNat) % 256 = byte.toNat := by omega
    rw [List.length_append, List.length_singleton, fixed_succ, toNat_concat, hquot, hrem, ih,
      UInt8.ofNat_toNat]

theorem fixed_mod (width n : Nat) : fixed width (n % 256 ^ width) = fixed width n := by
  have h := fixed_toNat (fixed width n)
  rwa [length_fixed, toNat_fixed] at h

/-- Bytes are the full form of every number that their own number is a remainder of. -/
theorem eq_fixed {bytes : Bytes} {width n : Nat} (hlength : bytes.length = width)
    (h : bytes.toNat = n % 256 ^ width) : bytes = fixed width n := by
  rw [← fixed_mod, ← h, ← hlength, fixed_toNat]

/-! ## Splitting -/

theorem split?_append {count : Nat} {front : Bytes} (h : front.length = count) (rest : Bytes) :
    split? count (front ++ rest) = some (front, rest) := by
  subst h
  simp [split?]

theorem split?_eq_some {count : Nat} {bytes front rest : Bytes} :
    split? count bytes = some (front, rest) ↔ bytes = front ++ rest ∧ front.length = count := by
  constructor
  · intro h
    rw [split?] at h
    split at h
    · next hlen =>
      injection h with h
      injection h with hfront hrest
      subst hfront hrest
      exact ⟨(List.take_append_drop count bytes).symm, hlen⟩
    · exact absurd h (by simp)
  · rintro ⟨rfl, hlen⟩
    exact split?_append hlen rest

/-! ## Cutting into pieces -/

/-- The fuel does not show in the pieces as long as it reaches the end. -/
theorem chunks_go_eq (size : Nat) {fuel fuel' : Nat} {bytes : Bytes} (h : bytes.length ≤ fuel)
    (h' : bytes.length ≤ fuel') : chunks.go size fuel bytes = chunks.go size fuel' bytes := by
  induction fuel generalizing fuel' bytes with
  | zero =>
    cases List.length_eq_zero_iff.mp (Nat.le_zero.mp h)
    cases fuel' <;> rfl
  | succ fuel ih =>
    cases bytes with
    | nil => cases fuel' <;> rfl
    | cons byte bytes =>
      cases fuel' with
      | zero => exact absurd h' (Nat.not_succ_le_zero _)
      | succ fuel' =>
        have hshorter : ((byte :: bytes).drop (max 1 size)).length ≤ bytes.length := by
          rw [List.length_drop, List.length_cons]
          omega
        rw [List.length_cons] at h h'
        show (byte :: bytes).take (max 1 size) :: chunks.go size fuel _
          = (byte :: bytes).take (max 1 size) :: chunks.go size fuel' _
        rw [ih (Nat.le_trans hshorter (Nat.le_of_succ_le_succ h))
          (Nat.le_trans hshorter (Nat.le_of_succ_le_succ h'))]

theorem chunks_append {size : Nat} {piece : Bytes} (hpos : 0 < size)
    (hpiece : piece.length = size) (rest : Bytes) :
    chunks size (piece ++ rest) = piece :: chunks size rest := by
  have hmax : max 1 size = piece.length := by omega
  cases piece with
  | nil => exact absurd hpiece (Nat.ne_of_lt hpos)
  | cons byte piece =>
    have hfuel : rest.length ≤ (piece ++ rest).length := by
      rw [List.length_append]
      omega
    show ((byte :: piece) ++ rest).take (max 1 size)
      :: chunks.go size (piece ++ rest).length (((byte :: piece) ++ rest).drop (max 1 size)) = _
    rw [hmax, List.take_left, List.drop_left, chunks_go_eq size hfuel (Nat.le_refl _)]
    rfl

end Bytes
end CardAccess
