import CardAccess.Hash.Algorithm
import CardAccess.Proofs.Bytes

/-!
# How long digests are

Whatever goes into a hash function, also with a key, what comes out has the length that is stated
for the function.
-/

namespace CardAccess

/-- Words of one width each make a string of as many bytes as they have together. -/
theorem Bytes.length_flatMap_fixed {W : Type} (width : Nat) (toNat : W → Nat) (words : List W) :
    (words.flatMap fun word => Bytes.fixed width (toNat word)).length = words.length * width := by
  induction words with
  | nil => simp
  | cons word words ih =>
    rw [List.flatMap_cons, List.length_append, ih, Bytes.length_fixed, List.length_cons,
      Nat.succ_mul, Nat.add_comm]

namespace Hash

theorem Sha1.length_digest (message : Bytes) : (Sha1.digest message).length = 20 :=
  Bytes.length_flatMap_fixed 4 UInt32.toNat _

theorem Sha2.length_run {W : Type} [Add W] [XorOp W] [AndOp W] [Complement W] (family : Family W)
    (start : State W) (message : Bytes) :
    (Sha2.run family start message).length = 8 * family.wordLength :=
  Bytes.length_flatMap_fixed family.wordLength family.toNat _

end Hash

namespace HashAlgorithm

open Hash

theorem digestLength_pos (hash : HashAlgorithm) : 0 < hash.digestLength := by
  cases hash <;> decide

theorem length_digest (hash : HashAlgorithm) (message : Bytes) :
    (hash.digest message).length = hash.digestLength := by
  cases hash with
  | sha1 => exact Sha1.length_digest message
  | sha224 =>
    show ((Sha2.run Sha2.family32 _ message).take 28).length = 28
    rw [List.length_take, Sha2.length_run]
    rfl
  | sha256 => exact Sha2.length_run Sha2.family32 _ message
  | sha384 =>
    show ((Sha2.run Sha2.family64 _ message).take 48).length = 48
    rw [List.length_take, Sha2.length_run]
    rfl
  | sha512 => exact Sha2.length_run Sha2.family64 _ message

theorem length_hmac (hash : HashAlgorithm) (key message : Bytes) :
    (hash.hmac key message).length = hash.digestLength :=
  hash.length_digest _

end HashAlgorithm
end CardAccess
