import CardAccess.Cipher.Aes
import CardAccess.Proofs.Cipher.Block

/-!
# AES decryption undoes encryption

Every step of a round is undone by the step beside it: the substitution because
inverses of inverses are the bytes themselves, the shift because it only moves
bytes, and the mixing because both matrices are linear and their product sends
a column with one byte to itself.  No property of the round keys enters, so the
cipher is lawful under any schedule and in particular under that of a key.

That `inverse` undoes itself is computed for all 256 bytes.  The computation goes
through `doubleNumber` and `productNumber`, which say on numbers what `double`
and `product` do to bytes and which the kernel evaluates with its own arithmetic.
-/

namespace CardAccess
namespace Cipher
namespace Aes

/-! ## Bytes under addition -/

theorem xor_left_comm (a b c : UInt8) : a ^^^ (b ^^^ c) = b ^^^ (a ^^^ c) := by
  rw [← UInt8.xor_assoc, UInt8.xor_comm a b, UInt8.xor_assoc]

theorem xor_cancel_left (a b : UInt8) : a ^^^ (a ^^^ b) = b := by
  rw [← UInt8.xor_assoc, UInt8.xor_self, UInt8.zero_xor]

theorem xor_and (a b c : UInt8) : (a ^^^ b) &&& c = (a &&& c) ^^^ (b &&& c) := by
  apply UInt8.toBitVec_inj.mp
  apply BitVec.eq_of_getLsbD_eq
  intro i _
  simp only [UInt8.toBitVec_and, UInt8.toBitVec_xor, BitVec.getLsbD_and, BitVec.getLsbD_xor]
  cases a.toBitVec.getLsbD i <;> cases b.toBitVec.getLsbD i <;> simp

theorem high_bit (a : UInt8) : a &&& 0x80 = 0 ∨ a &&& 0x80 = 0x80 := by
  revert a
  exact Bytes.forall_byte (by decide +kernel)

theorem double_xor (a b : UInt8) : double (a ^^^ b) = double a ^^^ double b := by
  have hshift : (a ^^^ b) <<< 1 = (a <<< 1) ^^^ (b <<< 1) := by
    apply UInt8.toBitVec_inj.mp
    simp [BitVec.shiftLeft_xor_distrib]
  have hne : ¬ (0x80 : UInt8) = 0 := by decide
  unfold double
  rw [hshift, xor_and]
  rcases high_bit a with ha | ha <;> rcases high_bit b with hb | hb <;> rw [ha, hb]
  · simp only [UInt8.xor_self, if_pos, UInt8.xor_zero]
  · simp only [UInt8.zero_xor, if_pos, if_neg hne, UInt8.xor_zero, UInt8.xor_assoc]
  · simp only [UInt8.xor_zero, if_pos, if_neg hne]
    ac_rfl
  · rw [UInt8.xor_self, if_pos rfl, if_neg hne, UInt8.xor_zero, UInt8.xor_assoc,
      UInt8.xor_comm (b <<< 1), xor_cancel_left]

theorem double_zero : double 0 = 0 := by decide

/-! ## Substitution -/

/-- The product with `x`, on numbers below 256. -/
def doubleNumber (n : Nat) : Nat := (2 * n % 256) ^^^ (n / 128 * 27)

/-- The product over the `count` low bits of the second number. -/
def productNumber : (count : Nat) → Nat → Nat → Nat
  | 0, _, _ => 0
  | count + 1, a, b => (b % 2 * a) ^^^ productNumber count (doubleNumber a) (b / 2)

/-- The power 254, as `inverse.go` computes it. -/
def inverseNumber : (count : Nat) → Nat → Nat
  | 0, _ => 1
  | count + 1, p => productNumber 8 p (inverseNumber count (productNumber 8 p p))

theorem toNat_double (a : UInt8) : (double a).toNat = doubleNumber a.toNat := by
  revert a
  exact Bytes.forall_byte (by decide +kernel)

theorem low_bit (b : UInt8) : b &&& 1 = 0 ↔ b.toNat % 2 = 0 := by
  rw [← UInt8.toNat_inj, UInt8.toNat_and]
  show b.toNat &&& 1 = 0 ↔ _
  rw [Nat.and_one_is_mod]

theorem toNat_product (count : Nat) (a b : UInt8) :
    (product count a b).toNat = productNumber count a.toNat b.toNat := by
  induction count generalizing a b with
  | zero => rfl
  | succ count ih =>
    have hshift : (b >>> 1).toNat = b.toNat / 2 := by
      rw [UInt8.toNat_shiftRight]
      exact Nat.shiftRight_eq_div_pow b.toNat 1
    have hpick : (if b &&& 1 = 0 then 0 else a).toNat = b.toNat % 2 * a.toNat := by
      by_cases hb : b &&& 1 = 0
      · rw [if_pos hb, low_bit b |>.mp hb, Nat.zero_mul]
        rfl
      · have hodd : b.toNat % 2 = 1 := by
          have hne : ¬ b.toNat % 2 = 0 := fun h => hb ((low_bit b).mpr h)
          omega
        rw [if_neg hb, hodd, Nat.one_mul]
    rw [product, productNumber, UInt8.toNat_xor, hpick, ih, toNat_double, hshift]

theorem toNat_inverse_go (count : Nat) (p : UInt8) :
    (inverse.go count p).toNat = inverseNumber count p.toNat := by
  induction count generalizing p with
  | zero => rfl
  | succ count ih =>
    rw [inverse.go, mul, toNat_product, ih, mul, toNat_product]
    rfl

theorem toNat_inverse (b : UInt8) :
    (inverse b).toNat = inverseNumber 7 (productNumber 8 b.toNat b.toNat) := by
  rw [inverse, toNat_inverse_go, mul, toNat_product]

theorem inverse_inverse (b : UInt8) : inverse (inverse b) = b := by
  have hall : ∀ n : Fin 256,
      inverseNumber 7 (productNumber 8 (inverseNumber 7 (productNumber 8 n n))
        (inverseNumber 7 (productNumber 8 n n))) = n.val := by
    decide +kernel
  apply UInt8.toNat_inj.mp
  rw [toNat_inverse, toNat_inverse]
  exact hall ⟨b.toNat, b.toNat_lt⟩

/-- The affine part of the substitution has the inverse that `substituted` uses. -/
theorem affine_cancel (i : UInt8) :
    let s := i ^^^ rotateLeft i 1 ^^^ rotateLeft i 2 ^^^ rotateLeft i 3 ^^^ rotateLeft i 4 ^^^ 0x63
    rotateLeft s 1 ^^^ rotateLeft s 3 ^^^ rotateLeft s 6 ^^^ 0x05 = i := by
  revert i
  exact Bytes.forall_byte (by decide +kernel)

theorem substituted_substitution (b : UInt8) : substituted (substitution b) = b := by
  unfold substituted substitution
  dsimp only
  rw [affine_cancel (inverse b), inverse_inverse]

theorem lookUp_tabulate (f : UInt8 → UInt8) (b : UInt8) : lookUp (tabulate f) b = f b := by
  have hlt : b.toNat < 256 := b.toNat_lt
  show (Vector.ofFn fun i : Fin 256 => f (UInt8.ofNat i))[b.toNat] = f b
  rw [Vector.getElem_ofFn, UInt8.ofNat_toNat]

theorem unsubstitute_substitute (b : Block) : unsubstitute (substitute b) = b := by
  have hbyte (a : UInt8) : lookUp substitutedTable (lookUp substitutionTable a) = a := by
    rw [substitutedTable, substitutionTable, lookUp_tabulate, lookUp_tabulate,
      substituted_substitution]
  simp only [unsubstitute, substitute, substituteWord, Block.map, Word.map, hbyte]

/-! ## Rows and columns -/

theorem unshiftRows_shiftRows (b : Block) : unshiftRows (shiftRows b) = b := rfl

theorem mixColumn_xor (v w : Word) : mixColumn (v.xor w) = (mixColumn v).xor (mixColumn w) := by
  simp only [mixColumn, Word.xor, double_xor]
  congr 1 <;> ac_rfl

theorem unmixColumn_xor (v w : Word) :
    unmixColumn (v.xor w) = (unmixColumn v).xor (unmixColumn w) := by
  simp only [unmixColumn, Word.xor, double_xor]
  congr 1 <;> ac_rfl

theorem mixColumn_rotate (w : Word) : mixColumn w.rotate = (mixColumn w).rotate := rfl

theorem unmixColumn_rotate (w : Word) : unmixColumn w.rotate = (unmixColumn w).rotate := rfl

/-- A column with one byte is restored; the three others follow by rotation. -/
theorem unmixColumn_mixColumn_single (a : UInt8) :
    unmixColumn (mixColumn ⟨a, 0, 0, 0⟩) = ⟨a, 0, 0, 0⟩ := by
  simp only [mixColumn, unmixColumn, double_xor, double_zero, UInt8.xor_zero, UInt8.zero_xor,
    UInt8.xor_assoc, xor_left_comm, UInt8.xor_comm, xor_cancel_left, UInt8.xor_self]

theorem unmixColumn_mixColumn (w : Word) : unmixColumn (mixColumn w) = w := by
  obtain ⟨a, b, c, d⟩ := w
  have hsum : (⟨a, b, c, d⟩ : Word) =
      ((⟨a, 0, 0, 0⟩ : Word).xor (⟨b, 0, 0, 0⟩ : Word).rotate.rotate.rotate).xor
        ((⟨c, 0, 0, 0⟩ : Word).rotate.rotate.xor (⟨d, 0, 0, 0⟩ : Word).rotate) := by
    simp [Word.xor, Word.rotate]
  rw [hsum]
  simp only [mixColumn_xor, unmixColumn_xor, mixColumn_rotate, unmixColumn_rotate,
    unmixColumn_mixColumn_single]

/-! ## Rounds -/

theorem map_unmix_map_mix (b : Block) : (b.map mixColumn).map unmixColumn = b := by
  simp only [Block.map, unmixColumn_mixColumn]

theorem decryptRounds_encryptRounds (keys : List Block) (b : Block) :
    decryptRounds keys (encryptRounds keys b) = b := by
  induction keys generalizing b with
  | nil => rfl
  | cons key keys ih =>
    cases keys with
    | nil =>
      show unsubstitute (unshiftRows (((shiftRows (substitute b)).xor key).xor key)) = b
      rw [Block.xor_xor, unshiftRows_shiftRows, unsubstitute_substitute]
    | cons next keys =>
      show unsubstitute (unshiftRows (((decryptRounds (next :: keys) (encryptRounds (next :: keys)
        (((shiftRows (substitute b)).map mixColumn).xor key))).xor key).map unmixColumn)) = b
      rw [ih, Block.xor_xor, map_unmix_map_mix, unshiftRows_shiftRows, unsubstitute_substitute]

theorem lawful_cipher (k : Key) : (cipher k).Lawful := by
  intro b
  show (decryptRounds _ (encryptRounds _ (b.xor _))).xor _ = b
  rw [decryptRounds_encryptRounds, Block.xor_xor]

end Aes
end Cipher
end CardAccess
