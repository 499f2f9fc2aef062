import CardAccess.Cipher.Padding

/-!
# Cipher block chaining

Each block has the encrypted block before it added before it is encrypted
itself, the first one an initial value.
-/

namespace CardAccess
namespace Cipher
namespace Cbc

/-- Encrypt blocks, of which `previous` is the encrypted predecessor. -/
def encryptBlocks (c : BlockCipher) : (previous : Block) → List Block → List Block
  | _, [] => []
  | previous, block :: blocks =>
    let encrypted := c.encrypt (block.xor previous)
    encrypted :: encryptBlocks c encrypted blocks

def decryptBlocks (c : BlockCipher) : (previous : Block) → List Block → List Block
  | _, [] => []
  | previous, block :: blocks => (c.decrypt block).xor previous :: decryptBlocks c block blocks

def encrypt (c : BlockCipher) (initial : Block) (data : Bytes) : Bytes :=
  Block.join (encryptBlocks c initial (Block.cut (Padding.pad data)))

/-- Decrypt a byte string and take the padding off, if it is made of whole blocks
and ends with a padding. -/
def decrypt? (c : BlockCipher) (initial : Block) (data : Bytes) : Option Bytes :=
  if data.length % Block.size = 0 then
    Padding.strip? (Block.join (decryptBlocks c initial (Block.cut data)))
  else none

end Cbc
end Cipher
end CardAccess
