import CardAccess.Cipher.Padding

/-!
# Checksums from a block cipher

The message is chained through the cipher block by block.  Before the last block
is encrypted, one of two masks is added that only the holder of the key can
compute: the first if the block is whole, the second if it had to be padded.
-/

namespace CardAccess
namespace Cipher
namespace Cmac

/-- A block as a polynomial over the field with two elements, multiplied with `x`
and reduced modulo `x ^ 128 + x ^ 7 + x ^ 2 + x + 1`. -/
def double (b : Block) : Block :=
  let n := Bytes.toNat b.toBytes
  let shifted := 2 * n % Nat.pow 2 128
  .ofBytes (Bytes.fixed Block.size (if n < Nat.pow 2 127 then shifted else shifted ^^^ 0x87))

/-- The mask of a message that ends with a whole block. -/
def wholeMask (c : BlockCipher) : Block := double (c.encrypt .zero)

/-- The mask of a message whose last block is padded. -/
def paddedMask (c : BlockCipher) : Block := double (wholeMask c)

def masked (c : BlockCipher) (last : Bytes) : Block :=
  if last.length = Block.size then (Block.ofBytes last).xor (wholeMask c)
  else (Block.ofBytes (last ++ [Padding.mark])).xor (paddedMask c)

/-- Chain the pieces of a message onto `state`. -/
def chain (c : BlockCipher) : (state : Block) → List Bytes → Block
  | state, [] => c.encrypt (state.xor (masked c []))
  | state, [last] => c.encrypt (state.xor (masked c last))
  | state, piece :: pieces => chain c (c.encrypt (state.xor (.ofBytes piece))) pieces

def tag (c : BlockCipher) (message : Bytes) : Block :=
  chain c .zero (Bytes.chunks Block.size message)

end Cmac
end Cipher
end CardAccess
