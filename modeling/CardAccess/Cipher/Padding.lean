import CardAccess.Cipher.Block

/-!
# Padding to whole blocks

A byte `80` marks the end of the data, and zero bytes follow up to the end of the
block.  At least the mark is always added, so the mark that ends the data can be
told from one that is data.
-/

namespace CardAccess
namespace Cipher
namespace Padding

/-- The byte that ends the data. -/
def mark : UInt8 := 0x80

/-- The number of zero bytes after the mark of `length` bytes of data. -/
def fill (length : Nat) : Nat := Block.size - 1 - length % Block.size

def pad (data : Bytes) : Bytes := data ++ mark :: Bytes.zeros (fill data.length)

/-- Take the padding off.  The mark must be the last byte of the last block that
is not zero. -/
def strip? (padded : Bytes) : Option Bytes :=
  let reversed := padded.reverse
  match reversed.dropWhile (· = 0) with
  | byte :: data =>
    if byte = mark ∧ (reversed.takeWhile (· = 0)).length < Block.size then some data.reverse
    else none
  | [] => none

end Padding
end Cipher
end CardAccess
