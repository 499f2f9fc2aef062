import CardAccess.Cipher.Padding
import CardAccess.Proofs.Bytes
import Mathlib.Data.List.TakeWhile

/-!
# Byte strings and blocks

Cutting a byte string into blocks and joining them again gives the byte string,
provided that it is made of whole blocks, and joining blocks and cutting again
always gives the blocks.  Padding makes whole blocks out of any byte string;
`strip?_eq_some` says which byte strings have a padding to take off.
-/

namespace CardAccess
namespace Cipher

/-! ## Words -/

theorem Word.xor_xor (v w : Word) : (v.xor w).xor w = v := by
  simp only [Word.xor, UInt8.xor_assoc, UInt8.xor_self, UInt8.xor_zero]

theorem Word.toBytes_ofBytes {bytes : Bytes} (h : 4 ≤ bytes.length) :
    (Word.ofBytes bytes).toBytes = bytes.take 4 := by
  match bytes, h with
  | _ :: _ :: _ :: _ :: _, _ => rfl

/-! ## Blocks -/

namespace Block

theorem xor_xor (a b : Block) : (a.xor b).xor b = a := by
  simp only [Block.xor, Word.xor_xor]

@[simp] theorem length_toBytes (b : Block) : b.toBytes.length = size := rfl

theorem ofBytes_toBytes (b : Block) : ofBytes b.toBytes = b := rfl

theorem toBytes_ofBytes {bytes : Bytes} (h : bytes.length = size) :
    (ofBytes bytes).toBytes = bytes := by
  have hsize : bytes.length = 4 + 4 + 4 + 4 := h
  have hword {count : Nat} (hcount : count ≤ 12) :
      (Word.ofBytes (bytes.drop count)).toBytes = (bytes.drop count).take 4 := by
    apply Word.toBytes_ofBytes
    rw [List.length_drop]
    omega
  have hall : bytes.take (4 + 4 + 4 + 4) = bytes := List.take_of_length_le (Nat.le_of_eq hsize)
  rw [List.take_add, List.take_add, List.take_add] at hall
  show (Word.ofBytes (bytes.drop 0)).toBytes ++ (Word.ofBytes (bytes.drop 4)).toBytes
    ++ (Word.ofBytes (bytes.drop 8)).toBytes ++ (Word.ofBytes (bytes.drop 12)).toBytes = bytes
  rw [hword (by omega), hword (by omega), hword (by omega), hword (by omega)]
  exact hall

/-! ## Several blocks -/

@[simp] theorem join_cons (b : Block) (bs : List Block) : join (b :: bs) = b.toBytes ++ join bs :=
  rfl

theorem length_join (bs : List Block) : (join bs).length = size * bs.length := by
  induction bs with
  | nil => rfl
  | cons b bs ih =>
    rw [join_cons, List.length_append, length_toBytes, ih, List.length_cons, Nat.mul_succ,
      Nat.add_comm]

theorem cut_append {front : Bytes} (h : front.length = size) (rest : Bytes) :
    cut (front ++ rest) = ofBytes front :: cut rest := by
  rw [cut, Bytes.chunks_append (by decide) h, List.map_cons]
  rfl

theorem cut_join (bs : List Block) : cut (join bs) = bs := by
  induction bs with
  | nil => rfl
  | cons b bs ih => rw [join_cons, cut_append (length_toBytes b), ofBytes_toBytes, ih]

/-- Whole blocks are the bytes of as many blocks. -/
theorem join_cut_of_length (count : Nat) {bytes : Bytes} (h : bytes.length = size * count) :
    join (cut bytes) = bytes ∧ (cut bytes).length = count := by
  induction count generalizing bytes with
  | zero =>
    cases List.length_eq_zero_iff.mp h
    exact ⟨rfl, rfl⟩
  | succ count ih =>
    rw [Nat.mul_succ] at h
    have hfront : (bytes.take size).length = size := by
      rw [List.length_take]
      omega
    have hrest : (bytes.drop size).length = size * count := by
      rw [List.length_drop]
      omega
    obtain ⟨hjoin, hcount⟩ := ih hrest
    have hcut := cut_append hfront (bytes.drop size)
    rw [List.take_append_drop] at hcut
    rw [hcut, join_cons, toBytes_ofBytes hfront, hjoin, List.take_append_drop, List.length_cons,
      hcount]
    exact ⟨rfl, rfl⟩

theorem join_cut {bytes : Bytes} (h : bytes.length % size = 0) : join (cut bytes) = bytes :=
  (join_cut_of_length (bytes.length / size) (Nat.mul_div_cancel' (Nat.dvd_of_mod_eq_zero h)).symm).1

end Block

/-! ## Padding -/

namespace Padding

theorem length_pad (data : Bytes) :
    (pad data).length = Block.size * (data.length / Block.size + 1) := by
  have hsize : Block.size = 16 := rfl
  rw [pad, List.length_append, List.length_cons, Bytes.zeros, List.length_replicate, fill, hsize]
  omega

theorem length_pad_mod (data : Bytes) : (pad data).length % Block.size = 0 := by
  rw [length_pad, Nat.mul_mod_right]

/-- The byte strings with a padding are those that end with the mark and fewer
zero bytes than a block has. -/
theorem strip?_eq_some {padded data : Bytes} :
    strip? padded = some data ↔
      ∃ count, count < Block.size ∧ padded = data ++ mark :: Bytes.zeros count := by
  constructor
  · intro h
    have hzero : ∀ b ∈ padded.reverse.takeWhile (· = 0), b = 0 := by
      intro b hb
      simpa using List.mem_takeWhile_imp hb
    have hreverse := List.takeWhile_append_dropWhile (p := fun b : UInt8 => decide (b = 0))
      (l := padded.reverse)
    rw [strip?] at h
    split at h
    · next byte rest hdrop =>
      split at h
      · next hmark =>
        injection h with h
        refine ⟨_, hmark.2, ?_⟩
        rw [hdrop, List.eq_replicate_of_mem hzero, hmark.1] at hreverse
        have hpadded := congrArg List.reverse hreverse
        rw [List.reverse_append, List.reverse_cons, List.reverse_reverse, List.reverse_replicate,
          h, List.append_assoc, List.singleton_append] at hpadded
        exact hpadded.symm
      · cases h
    · cases h
  · rintro ⟨count, hcount, rfl⟩
    have hreverse : (data ++ mark :: Bytes.zeros count).reverse
        = List.replicate count 0 ++ mark :: data.reverse := by
      rw [List.reverse_append, List.reverse_cons, Bytes.zeros, List.reverse_replicate,
        List.append_assoc, List.singleton_append]
    have hmark : decide (mark = 0) = false := by decide
    have hdrop : (List.replicate count (0 : UInt8) ++ mark :: data.reverse).dropWhile (· = 0)
        = mark :: data.reverse := by
      rw [List.dropWhile_append_of_pos (by simp),
        List.dropWhile_cons_of_neg (by rw [hmark]; decide)]
    have htake : (List.replicate count (0 : UInt8) ++ mark :: data.reverse).takeWhile (· = 0)
        = List.replicate count 0 := by
      rw [List.takeWhile_append_of_pos (by simp),
        List.takeWhile_cons_of_neg (by rw [hmark]; decide), List.append_nil]
    rw [strip?, hreverse, hdrop, htake, List.length_replicate]
    dsimp only
    rw [if_pos ⟨rfl, hcount⟩, List.reverse_reverse]

theorem strip?_pad (data : Bytes) : strip? (pad data) = some data := by
  refine strip?_eq_some.mpr ⟨fill data.length, ?_, rfl⟩
  have hsize : Block.size = 16 := rfl
  rw [fill, hsize]
  omega

/-- In whole blocks there is room for one padding only. -/
theorem strip?_eq_some_of_whole {padded data : Bytes} (h : padded.length % Block.size = 0) :
    strip? padded = some data ↔ padded = pad data := by
  constructor
  · intro hstrip
    obtain ⟨count, hcount, rfl⟩ := strip?_eq_some.mp hstrip
    have hsize : Block.size = 16 := rfl
    rw [List.length_append, List.length_cons, Bytes.zeros, List.length_replicate, hsize] at h
    have hfill : count = fill data.length := by
      rw [fill, hsize]
      omega
    rw [pad, hfill]
  · rintro rfl
    exact strip?_pad data

end Padding
end Cipher
end CardAccess
