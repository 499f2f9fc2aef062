import CardAccess.Cipher.Cbc
import CardAccess.Proofs.Cipher.Block

/-!
# Decrypting a chain of blocks

Each block is decrypted with the encrypted block before it, which is the one that
was added to it, so a lawful cipher gives the chain back.  All of it holds for
any initial block, as long as both ends use the same one.
-/

namespace CardAccess
namespace Cipher
namespace Cbc

variable {c : BlockCipher}

theorem length_encryptBlocks (previous : Block) (blocks : List Block) :
    (encryptBlocks c previous blocks).length = blocks.length := by
  induction blocks generalizing previous with
  | nil => rfl
  | cons block blocks ih => rw [encryptBlocks, List.length_cons, ih, List.length_cons]

theorem decryptBlocks_encryptBlocks (h : c.Lawful) (previous : Block) (blocks : List Block) :
    decryptBlocks c previous (encryptBlocks c previous blocks) = blocks := by
  induction blocks generalizing previous with
  | nil => rfl
  | cons block blocks ih => rw [encryptBlocks, decryptBlocks, h, Block.xor_xor, ih]

/-- Encryption fills the last block up and adds one if there is nothing to fill. -/
theorem length_encrypt (initial : Block) (data : Bytes) :
    (encrypt c initial data).length = Block.size * (data.length / Block.size + 1) := by
  rw [encrypt, Block.length_join, length_encryptBlocks,
    (Block.join_cut_of_length _ (Padding.length_pad data)).2]

theorem decrypt?_encrypt (h : c.Lawful) (initial : Block) (data : Bytes) :
    decrypt? c initial (encrypt c initial data) = some data := by
  have hwhole : (encrypt c initial data).length % Block.size = 0 := by
    rw [length_encrypt, Nat.mul_mod_right]
  rw [decrypt?, if_pos hwhole, encrypt, Block.cut_join, decryptBlocks_encryptBlocks h,
    Block.join_cut (Padding.length_pad_mod data), Padding.strip?_pad]

/-- What decrypts is whole blocks that decrypt to a padded byte string. -/
theorem decrypt?_eq_some {initial : Block} {data plain : Bytes} :
    decrypt? c initial data = some plain ↔
      data.length % Block.size = 0 ∧
        Block.join (decryptBlocks c initial (Block.cut data)) = Padding.pad plain := by
  have hwhole : (Block.join (decryptBlocks c initial (Block.cut data))).length % Block.size = 0 := by
    rw [Block.length_join, Nat.mul_mod_right]
  rw [decrypt?]
  by_cases hlength : data.length % Block.size = 0
  · rw [if_pos hlength, Padding.strip?_eq_some_of_whole hwhole]
    exact ⟨fun h => ⟨hlength, h⟩, fun h => h.2⟩
  · rw [if_neg hlength]
    exact ⟨(nomatch ·), fun h => absurd h.1 hlength⟩

end Cbc
end Cipher
end CardAccess
