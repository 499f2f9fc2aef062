import CardAccess.Tlv.Tag

/-!
# Length fields

A length below `80` is one byte.  A longer one is a byte that counts one to four
bytes, with bit `80` set, and then the length in those bytes.  Writing takes the
shortest of these forms; reading takes any of them, minimal or not, and refuses
the open-ended form `80`.
-/

namespace CardAccess
namespace Tlv
namespace Length

/-- The most bytes a long form counts. -/
def maxCount : Nat := 4

/-- The number of bytes of the shortest field. -/
def fieldLength (n : Nat) : Nat :=
  if n < 0x80 then 1 else if n < 0x100 then 2 else if n < 0x10000 then 3
  else if n < 0x1000000 then 4 else 5

/-- The shortest field.  Of a number of `2 ^ 32` or more only the low 32 bits
fit. -/
def encode (n : Nat) : Bytes :=
  if n < 0x80 then [UInt8.ofNat n]
  else
    let count := fieldLength n - 1
    UInt8.ofNat (0x80 + count) :: Bytes.fixed count n

def read (c : Cursor) : Except DecodeError (Nat × Cursor) := do
  let (first, rest) ← c.next
  let n := first.toNat
  if n < 0x80 then .ok (n, rest)
  else if n = 0x80 then c.fail .indefiniteLength
  else if n - 0x80 > maxCount then c.fail .lengthTooLong
  else
    let (field, rest) ← rest.take (n - 0x80)
    .ok (field.bytes.toNat, rest)

/-- `Field n field`: the byte string `field` states the length `n`, in the one
byte form or in a long form of any width. -/
inductive Field : Nat → Bytes → Prop where
  | short (n : Nat) (h : n < 0x80) : Field n [UInt8.ofNat n]
  | long (count : Nat) (digits : Bytes) (hpos : 0 < count) (hmax : count ≤ maxCount)
      (hlen : digits.length = count) :
      Field digits.toNat (UInt8.ofNat (0x80 + count) :: digits)

end Length
end Tlv
end CardAccess
