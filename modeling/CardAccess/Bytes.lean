/-!
# Byte strings and numbers

A byte string is a list of bytes.  Numbers travel in them with the most
significant byte first, either in a fixed width or in the fewest bytes.
`toNat` reads both forms, `fixed` and `minimal` write them.
-/

namespace CardAccess

/-- A byte string, the first byte at the head. -/
abbrev Bytes := List UInt8

/-- The number of binary digits of `n`, none for zero. -/
def bitLength (n : Nat) : Nat :=
  if n = 0 then 0 else n.log2 + 1

/-- The fewest bytes that hold `n`, none for zero. -/
def byteLength (n : Nat) : Nat :=
  (bitLength n + 7) / 8

namespace Bytes

/-- Read a number, most significant byte first. -/
def toNat (bytes : Bytes) : Nat :=
  bytes.foldl (fun value byte => value * 256 + byte.toNat) 0

/-- Prepend the `width` low bytes of `n` to `tail`. -/
def prependFixed : (width n : Nat) → Bytes → Bytes
  | 0, _, tail => tail
  | width + 1, n, tail => prependFixed width (n / 256) (UInt8.ofNat (n % 256) :: tail)

/-- Write `n` in `width` bytes, dropping what does not fit. -/
def fixed (width n : Nat) : Bytes := prependFixed width n []

/-- Write `n` in the fewest bytes, and zero as one zero byte. -/
def minimal (n : Nat) : Bytes := fixed (max 1 (byteLength n)) n

def zeros (count : Nat) : Bytes := List.replicate count 0

/-- Take the first `count` bytes off, if there are so many. -/
def split? (count : Nat) (bytes : Bytes) : Option (Bytes × Bytes) :=
  let front := bytes.take count
  if front.length = count then some (front, bytes.drop count) else none

/-- Cut into pieces of `size` bytes, the last of which may be shorter.  The
fuel `bytes.length` suffices because each piece takes at least one byte. -/
def chunks (size : Nat) (bytes : Bytes) : List Bytes :=
  go bytes.length bytes
where
  go : Nat → Bytes → List Bytes
    | _, [] => []
    | 0, rest => [rest]
    | fuel + 1, rest => rest.take (max 1 size) :: go fuel (rest.drop (max 1 size))

end Bytes

end CardAccess
