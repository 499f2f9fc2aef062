import CardAccess.Proofs.Tlv.Cursor
import CardAccess.Tlv.Length

/-!
# Reading length fields

`Length.read` succeeds on the fields of `Length.Field` and on nothing else.  The
field that is written is one of them as long as the number fits four bytes, and
no other field of the same number is shorter.
-/

namespace CardAccess
namespace Tlv
namespace Length

/-! ## The written field -/

theorem fieldLength_pos (n : Nat) : 0 < fieldLength n := by
  unfold fieldLength
  grind

theorem fieldLength_le_five (n : Nat) : fieldLength n ≤ 5 := by
  unfold fieldLength
  grind

theorem fieldLength_mono {m n : Nat} (h : m ≤ n) : fieldLength m ≤ fieldLength n := by
  unfold fieldLength
  grind

theorem fieldLength_of_lt {n : Nat} (h : n < 0x80) : fieldLength n = 1 := by
  rw [fieldLength, if_pos h]

theorem two_le_fieldLength {n : Nat} (h : ¬ n < 0x80) : 2 ≤ fieldLength n := by
  unfold fieldLength
  grind

theorem lt_pow_fieldLength {n : Nat} (h : ¬ n < 0x80) (hn : n < 2 ^ 32) :
    n < 256 ^ (fieldLength n - 1) := by
  unfold fieldLength
  grind

@[simp] theorem length_encode (n : Nat) : (encode n).length = fieldLength n := by
  by_cases h : n < 0x80
  · rw [encode, if_pos h, fieldLength_of_lt h, List.length_singleton]
  · have hpos := fieldLength_pos n
    rw [encode, if_neg h]
    show (Bytes.fixed (fieldLength n - 1) n).length + 1 = _
    rw [Bytes.length_fixed]
    omega

/-- Of a number that fits four bytes the written field is one of its fields. -/
theorem field_encode {n : Nat} (hn : n < 2 ^ 32) : Field n (encode n) := by
  by_cases h : n < 0x80
  · rw [encode, if_pos h]
    exact .short n h
  · have htwo := two_le_fieldLength h
    have hfive := fieldLength_le_five n
    have hfit := Bytes.toNat_fixed_of_lt (lt_pow_fieldLength h hn)
    rw [encode, if_neg h]
    have hfield : Field (Bytes.toNat (Bytes.fixed (fieldLength n - 1) n))
        (UInt8.ofNat (0x80 + (fieldLength n - 1)) :: Bytes.fixed (fieldLength n - 1) n) := by
      refine .long _ _ (by omega) ?_ (Bytes.length_fixed _ _)
      show fieldLength n - 1 ≤ 4
      omega
    rwa [hfit] at hfield

/-! ## All fields of a number -/

theorem Field.lt {n : Nat} {field : Bytes} (h : Field n field) : n < 2 ^ 32 := by
  cases h with
  | short n h => omega
  | long count digits hpos hmax hlen =>
    have hlt := Bytes.toNat_lt digits
    have hfour : digits.length ≤ 4 := by rw [hlen]; exact hmax
    have hpow : 256 ^ digits.length ≤ 256 ^ 4 := Nat.pow_le_pow_right (by decide) hfour
    omega

theorem Field.fieldLength_le {n : Nat} {field : Bytes} (h : Field n field) :
    fieldLength n ≤ field.length := by
  cases h with
  | short n h =>
    rw [fieldLength_of_lt h]
    exact Nat.le_refl 1
  | long count digits hpos hmax hlen =>
    have hlt := Bytes.toNat_lt digits
    have hmax' : count ≤ 4 := hmax
    rw [hlen] at hlt
    rw [List.length_cons, hlen]
    have hcases : count = 1 ∨ count = 2 ∨ count = 3 ∨ count = 4 := by omega
    unfold fieldLength
    rcases hcases with rfl | rfl | rfl | rfl <;> simp only [Nat.reducePow] at hlt <;> grind

/-! ## The reader -/

theorem count_add_toNat {count : Nat} (h : count ≤ maxCount) :
    (UInt8.ofNat (0x80 + count)).toNat = 0x80 + count := by
  have hmax : count ≤ 4 := h
  rw [UInt8.toNat_ofNat']
  omega

theorem read_eq_ok {c c' : Cursor} {n : Nat} :
    read c = .ok (n, c') ↔ ∃ field, Field n field ∧ c.Spans field c' := by
  rw [read, bind_eq_ok]
  constructor
  · rintro ⟨⟨first, c₁⟩, hnext, h⟩
    rw [Cursor.next_eq_ok] at hnext
    have hbyte := first.toNat_lt
    dsimp only at h
    split at h
    · next hshort =>
      cases h
      refine ⟨[first], ?_, hnext⟩
      have hfield := Field.short first.toNat hshort
      rwa [UInt8.ofNat_toNat] at hfield
    · next hshort =>
      split at h
      · cases h
      · next hopen =>
        split at h
        · cases h
        · next hmax =>
          rw [bind_eq_ok] at h
          obtain ⟨⟨digits, c₂⟩, htake, h⟩ := h
          obtain ⟨-, hlength, hspan⟩ := Cursor.take_eq_ok.mp htake
          cases h
          refine ⟨first :: digits.bytes, ?_, hnext.trans hspan⟩
          have hfield := Field.long (first.toNat - 0x80) digits.bytes (by omega)
            (Nat.le_of_not_lt hmax) hlength
          have hfirst : 0x80 + (first.toNat - 0x80) = first.toNat := by omega
          rwa [hfirst, UInt8.ofNat_toNat] at hfield
  · rintro ⟨field, hfield, hspan⟩
    cases hfield with
    | short n h =>
      refine ⟨(UInt8.ofNat n, c'), Cursor.next_eq_ok.mpr hspan, ?_⟩
      have hn : (UInt8.ofNat n).toNat = n := by
        rw [UInt8.toNat_ofNat']
        omega
      dsimp only
      rw [hn, if_pos h]
    | long count digits hpos hmax hlen =>
      have hfirst := count_add_toNat hmax
      have hmax' : count ≤ 4 := hmax
      obtain ⟨c₁, hnext, hrest⟩ := hspan.split_cons
      refine ⟨(_, c₁), Cursor.next_eq_ok.mpr hnext, ?_⟩
      dsimp only
      rw [hfirst, if_neg (by omega), if_neg (by omega), Nat.add_sub_cancel_left,
        if_neg (Nat.not_lt_of_le hmax), bind_eq_ok]
      exact ⟨(⟨c₁.offset, digits⟩, c'), Cursor.take_eq_ok.mpr ⟨rfl, hlen, hrest⟩, rfl⟩

end Length
end Tlv
end CardAccess
