import CardAccess.Bytes

/-!
# Blocks

A block is sixteen bytes, held as four words of four bytes.  A block cipher is a
pair of maps on blocks; the modes of operation take one as an argument and know
nothing else about it.
-/

namespace CardAccess
namespace Cipher

/-- Four bytes. -/
structure Word where
  b0 : UInt8
  b1 : UInt8
  b2 : UInt8
  b3 : UInt8
  deriving DecidableEq, Repr

namespace Word

def xor (v w : Word) : Word :=
  ⟨v.b0 ^^^ w.b0, v.b1 ^^^ w.b1, v.b2 ^^^ w.b2, v.b3 ^^^ w.b3⟩

def map (f : UInt8 → UInt8) (w : Word) : Word := ⟨f w.b0, f w.b1, f w.b2, f w.b3⟩

/-- The bytes moved one place to the front, the first going last. -/
def rotate (w : Word) : Word := ⟨w.b1, w.b2, w.b3, w.b0⟩

def toBytes (w : Word) : Bytes := [w.b0, w.b1, w.b2, w.b3]

/-- The first four bytes of a byte string, zero where it has ended. -/
def ofBytes (bytes : Bytes) : Word :=
  ⟨bytes.getD 0 0, bytes.getD 1 0, bytes.getD 2 0, bytes.getD 3 0⟩

end Word

/-- Sixteen bytes. -/
structure Block where
  w0 : Word
  w1 : Word
  w2 : Word
  w3 : Word
  deriving DecidableEq, Repr

namespace Block

def size : Nat := 16

def xor (a b : Block) : Block :=
  ⟨a.w0.xor b.w0, a.w1.xor b.w1, a.w2.xor b.w2, a.w3.xor b.w3⟩

def map (f : Word → Word) (b : Block) : Block := ⟨f b.w0, f b.w1, f b.w2, f b.w3⟩

def toBytes (b : Block) : Bytes :=
  b.w0.toBytes ++ b.w1.toBytes ++ b.w2.toBytes ++ b.w3.toBytes

def ofBytes (bytes : Bytes) : Block :=
  ⟨.ofBytes bytes, .ofBytes (bytes.drop 4), .ofBytes (bytes.drop 8), .ofBytes (bytes.drop 12)⟩

def zero : Block := ofBytes []

/-- Cut a byte string into blocks, the last filled up with zero bytes. -/
def cut (bytes : Bytes) : List Block := (Bytes.chunks size bytes).map ofBytes

def join (blocks : List Block) : Bytes := blocks.flatMap toBytes

end Block

/-- Two maps on blocks, under some key, of which the second undoes the first. -/
structure BlockCipher where
  encrypt : Block → Block
  decrypt : Block → Block

/-- The promise of a block cipher: what was encrypted can be read again. -/
def BlockCipher.Lawful (c : BlockCipher) : Prop := ∀ b, c.decrypt (c.encrypt b) = b

end Cipher
end CardAccess
