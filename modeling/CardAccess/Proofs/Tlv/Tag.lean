import CardAccess.Proofs.Tlv.Cursor

/-!
# Reading tags

`Tag.read` succeeds on the spellings of tags and on nothing else, and what it
returns is the tag with that spelling.  The second half needs that a spelling is
as short as its number allows: a tag of several bytes starts with a byte whose
five low bits are set, so its number does not fit fewer bytes.
-/

namespace CardAccess
namespace Tlv
namespace Tag

def ofBytes (bytes : Bytes) : Tag := ⟨UInt32.ofNat (Bytes.toNat bytes)⟩

theorem toNat_toBytes (t : Tag) : Bytes.toNat t.toBytes = t.number.toNat := by
  have hlt := t.number.toNat_lt
  have hfit : t.number.toNat < 256 ^ t.length := by
    simp only [length]
    split
    · assumption
    · split
      · assumption
      · split
        · assumption
        · exact hlt
  rw [toBytes, Bytes.toNat_fixed_of_lt hfit]

theorem ofBytes_toBytes (t : Tag) : ofBytes t.toBytes = t := by
  rw [ofBytes, toNat_toBytes, UInt32.ofNat_toNat]

@[simp] theorem length_toBytes (t : Tag) : t.toBytes.length = t.length := by
  rw [toBytes, Bytes.length_fixed]

theorem length_pos (t : Tag) : 0 < t.length := by
  simp only [length]
  split
  · decide
  · split
    · decide
    · split <;> decide

/-! ## Spellings -/

theorem Spelling.length_le {bytes : Bytes} (h : Spelling bytes) : bytes.length ≤ maxLength := by
  cases h with
  | short first h => exact Nat.le_add_left 1 3
  | long first middle last hfirst hmiddle hlast hroom =>
    show (middle ++ [last]).length + 1 ≤ 4
    rw [List.length_append, List.length_singleton]
    omega

/-- Five set bits make a byte greater than zero. -/
theorem le_of_marksLong {byte : UInt8} (h : marksLong byte = true) : 31 ≤ byte.toNat := by
  have hand : byte &&& 0x1F = 0x1F := eq_of_beq h
  have hnat : byte.toNat &&& 31 = 31 := by
    rw [← show (0x1F : UInt8).toNat = 31 from rfl, ← UInt8.toNat_and, hand]
  have hle : byte.toNat &&& 31 ≤ byte.toNat := Nat.and_le_left
  omega

/-- The number of a spelling needs all of its bytes. -/
theorem Spelling.length_ofBytes {bytes : Bytes} (h : Spelling bytes) :
    (ofBytes bytes).length = bytes.length := by
  have hmax : bytes.length ≤ 4 := h.length_le
  have hlt := Bytes.toNat_lt bytes
  have hpow : 256 ^ bytes.length ≤ 256 ^ 4 := Nat.pow_le_pow_right (by decide) hmax
  have hnumber : (ofBytes bytes).number.toNat = Bytes.toNat bytes := by
    rw [ofBytes, UInt32.toNat_ofNat']
    omega
  simp only [length, hnumber]
  cases h with
  | short first h =>
    have hbyte := first.toNat_lt
    rw [Bytes.toNat_singleton, if_pos (by omega)]
    rfl
  | long first middle last hfirst hmiddle hlast hroom =>
    have hlow := le_of_marksLong hfirst
    have hlength : (first :: (middle ++ [last])).length = middle.length + 2 := by
      rw [List.length_cons, List.length_append, List.length_singleton]
    have hrest : (middle ++ [last]).length = middle.length + 1 := by
      rw [List.length_append, List.length_singleton]
    rw [hlength] at hlt ⊢
    rw [Bytes.toNat_cons, hrest] at hlt ⊢
    have hcases : middle.length = 0 ∨ middle.length = 1 ∨ middle.length = 2 := by omega
    rcases hcases with h0 | h0 | h0 <;> rw [h0] at hlt ⊢ <;>
      simp only [Nat.zero_add, Nat.reduceAdd, Nat.reducePow, Nat.pow_one] at hlt ⊢ <;> grind

theorem Spelling.toBytes_ofBytes {bytes : Bytes} (h : Spelling bytes) :
    (ofBytes bytes).toBytes = bytes := by
  have hlength : (ofBytes bytes).toBytes.length = bytes.length := by
    rw [length_toBytes, h.length_ofBytes]
  have hmax : bytes.length ≤ 4 := h.length_le
  have hlt := Bytes.toNat_lt bytes
  have hpow : 256 ^ bytes.length ≤ 256 ^ 4 := Nat.pow_le_pow_right (by decide) hmax
  have hnat : Bytes.toNat (ofBytes bytes).toBytes = Bytes.toNat bytes := by
    rw [toNat_toBytes, ofBytes, UInt32.toNat_ofNat']
    omega
  rw [← Bytes.fixed_toNat (ofBytes bytes).toBytes, hnat, hlength, Bytes.fixed_toNat]

/-! ## The reader -/

/-- The bytes after the first one of a long spelling: all but the last announce
another. -/
def Continues (bytes : Bytes) : Prop :=
  ∃ middle last, bytes = middle ++ [last] ∧ (∀ b ∈ middle, marksMore b = true) ∧
    marksMore last = false

theorem continues_cons {byte : UInt8} {bytes : Bytes} (hmore : marksMore byte = true) :
    Continues (byte :: bytes) ↔ Continues bytes := by
  constructor
  · rintro ⟨middle, last, hbytes, hmiddle, hlast⟩
    cases middle with
    | nil =>
      obtain ⟨rfl, -⟩ := List.cons.inj hbytes
      rw [hmore] at hlast
      cases hlast
    | cons b middle =>
      obtain ⟨-, rfl⟩ := List.cons.inj hbytes
      exact ⟨middle, last, rfl, fun b hb => hmiddle b (List.mem_cons_of_mem _ hb), hlast⟩
  · rintro ⟨middle, last, rfl, hmiddle, hlast⟩
    refine ⟨byte :: middle, last, rfl, ?_, hlast⟩
    intro b hb
    rcases List.mem_cons.mp hb with rfl | hb
    · exact hmore
    · exact hmiddle b hb

theorem continues_cons_last {byte : UInt8} {bytes : Bytes} (hlast : marksMore byte = false) :
    Continues (byte :: bytes) ↔ bytes = [] := by
  constructor
  · rintro ⟨middle, last, hbytes, hmiddle, -⟩
    cases middle with
    | nil => exact (List.cons.inj hbytes).2
    | cons b middle =>
      obtain ⟨rfl, -⟩ := List.cons.inj hbytes
      rw [hmiddle byte (List.mem_cons_self ..)] at hlast
      cases hlast
  · rintro rfl
    exact ⟨[], byte, rfl, by simp, hlast⟩

theorem Continues.ne_nil {bytes : Bytes} (h : Continues bytes) : bytes ≠ [] := by
  obtain ⟨middle, last, rfl, -, -⟩ := h
  simp

theorem readMore_eq_ok {start room number : Nat} {c c' : Cursor} {t : Tag} :
    readMore start room number c = .ok (t, c') ↔
      ∃ more, Continues more ∧ more.length ≤ room ∧
        t = ⟨UInt32.ofNat (number * 256 ^ more.length + Bytes.toNat more)⟩ ∧ c.Spans more c' := by
  induction room generalizing number c with
  | zero =>
    constructor
    · intro h
      cases h
    · rintro ⟨more, hmore, hroom, -⟩
      exact absurd (List.length_eq_zero_iff.mp (Nat.le_zero.mp hroom)) hmore.ne_nil
  | succ room ih =>
    rw [readMore, bind_eq_ok]
    constructor
    · rintro ⟨⟨byte, c₁⟩, hnext, h⟩
      rw [Cursor.next_eq_ok] at hnext
      by_cases hbyte : marksMore byte = true
      · simp only [hbyte, if_true] at h
        obtain ⟨more, hmore, hroom, ht, hspan⟩ := ih.mp h
        refine ⟨byte :: more, (continues_cons hbyte).mpr hmore, ?_, ?_, hnext.trans hspan⟩
        · rw [List.length_cons]
          omega
        · rw [ht, Bytes.toNat_onto_cons, List.length_cons]
      · simp only [hbyte, if_false, Bool.false_eq_true] at h
        cases h
        have hlast : marksMore byte = false := by simpa using hbyte
        refine ⟨[byte], (continues_cons_last hlast).mpr rfl, Nat.succ_pos _, ?_, hnext⟩
        rw [Bytes.toNat_singleton, List.length_singleton, Nat.pow_one]
    · rintro ⟨more, hmore, hroom, ht, hspan⟩
      obtain ⟨byte, rest, rfl⟩ := List.exists_cons_of_ne_nil hmore.ne_nil
      obtain ⟨c₁, hnext, hrest⟩ := hspan.split_cons
      refine ⟨(byte, c₁), Cursor.next_eq_ok.mpr hnext, ?_⟩
      by_cases hbyte : marksMore byte = true
      · simp only [hbyte, if_true]
        rw [ih]
        refine ⟨rest, (continues_cons hbyte).mp hmore, Nat.le_of_succ_le_succ hroom, ?_, hrest⟩
        rw [ht, Bytes.toNat_onto_cons, List.length_cons]
      · have hlast : marksMore byte = false := by simpa using hbyte
        obtain rfl := (continues_cons_last hlast).mp hmore
        obtain rfl : c₁ = c' := Cursor.Spans.unique (Cursor.spans_nil c₁) hrest
        simp only [hbyte, if_false, Bool.false_eq_true]
        rw [ht, Bytes.toNat_singleton, List.length_singleton, Nat.pow_one]

theorem read_eq_ok_iff_spelling {c c' : Cursor} {t : Tag} :
    read c = .ok (t, c') ↔ ∃ bytes, Spelling bytes ∧ t = ofBytes bytes ∧ c.Spans bytes c' := by
  rw [read, bind_eq_ok]
  constructor
  · rintro ⟨⟨first, c₁⟩, hnext, h⟩
    rw [Cursor.next_eq_ok] at hnext
    by_cases hlong : marksLong first = true
    · simp only [hlong, if_true] at h
      obtain ⟨more, ⟨middle, last, rfl, hmiddle, hlast⟩, hroom, ht, hspan⟩ := readMore_eq_ok.mp h
      have hroom' : middle.length ≤ 2 := by
        have hmax : (middle ++ [last]).length ≤ 3 := hroom
        rw [List.length_append, List.length_singleton] at hmax
        omega
      refine ⟨first :: (middle ++ [last]), .long first middle last hlong hmiddle hlast hroom',
        ?_, hnext.trans hspan⟩
      rw [ht, ofBytes, Bytes.toNat_cons]
    · simp only [hlong, if_false, Bool.false_eq_true] at h
      cases h
      refine ⟨[first], .short first (by simpa using hlong), ?_, hnext⟩
      rw [ofBytes, Bytes.toNat_singleton]
  · rintro ⟨bytes, hspelling, rfl, hspan⟩
    cases hspelling with
    | short first h =>
      refine ⟨(first, c'), Cursor.next_eq_ok.mpr hspan, ?_⟩
      simp only [h, if_false, Bool.false_eq_true]
      rw [ofBytes, Bytes.toNat_singleton]
    | long first middle last hfirst hmiddle hlast hroom =>
      obtain ⟨c₁, hnext, hrest⟩ := hspan.split_cons
      refine ⟨(first, c₁), Cursor.next_eq_ok.mpr hnext, ?_⟩
      simp only [hfirst, if_true]
      refine readMore_eq_ok.mpr ⟨middle ++ [last], ⟨middle, last, rfl, hmiddle, hlast⟩, ?_, ?_,
        hrest⟩
      · show (middle ++ [last]).length ≤ 3
        rw [List.length_append, List.length_singleton]
        omega
      · rw [ofBytes, Bytes.toNat_cons]

/-- The tags that are read are the decodable ones, each from its own bytes. -/
theorem read_eq_ok {c c' : Cursor} {t : Tag} :
    read c = .ok (t, c') ↔ t.Decodable ∧ c.Spans t.toBytes c' := by
  rw [read_eq_ok_iff_spelling]
  constructor
  · rintro ⟨bytes, hspelling, rfl, hspan⟩
    rw [Decodable, hspelling.toBytes_ofBytes]
    exact ⟨hspelling, hspan⟩
  · rintro ⟨hspelling, hspan⟩
    exact ⟨t.toBytes, hspelling, (ofBytes_toBytes t).symm, hspan⟩

end Tag
end Tlv
end CardAccess
