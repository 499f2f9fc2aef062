import CardAccess.Hex

/-!
# Tags

A tag is the number that its one to four bytes spell, most significant byte
first.  The first byte says two things: its bit `20` marks an element that holds
other elements, and its five low bits, when all set, announce further bytes, each
but the last with bit `80`.  A tag built from any number has bytes; a tag read
from bytes also follows the second rule, which is `Tag.Decodable`.
-/

namespace CardAccess
namespace Tlv

/-- What is wrong with an encoding. -/
inductive DecodeError.Kind where
  | empty
  | truncated
  | tagTooLong
  | indefiniteLength
  | lengthTooLong
  | tooDeep
  | trailingData
  deriving DecidableEq, Repr

def DecodeError.Kind.message : DecodeError.Kind → String
  | .empty => "empty input"
  | .truncated => "input truncated"
  | .tagTooLong => "tag longer than four bytes"
  | .indefiniteLength => "indefinite length form"
  | .lengthTooLong => "length field longer than four bytes"
  | .tooDeep => "elements nested too deeply"
  | .trailingData => "trailing bytes after element"

/-- A fault in an encoding and the offset, in the whole input, where it lies. -/
structure DecodeError where
  offset : Nat
  kind : DecodeError.Kind
  deriving DecidableEq, Repr

def DecodeError.message (e : DecodeError) : String :=
  e.kind.message ++ " at offset " ++ toString e.offset

/-- The bytes not read yet, and where the first of them lies in the whole input.
Threading the offset keeps every reported position absolute, however deep the
reader is. -/
structure Cursor where
  offset : Nat
  bytes : Bytes
  deriving DecidableEq, Repr

def Cursor.fail {α : Type} (c : Cursor) (kind : DecodeError.Kind) : Except DecodeError α :=
  .error ⟨c.offset, kind⟩

def Cursor.next (c : Cursor) : Except DecodeError (UInt8 × Cursor) :=
  match c.bytes with
  | [] => c.fail .truncated
  | byte :: rest => .ok (byte, ⟨c.offset + 1, rest⟩)

/-- The next `count` bytes as a cursor of their own, and the cursor behind them. -/
def Cursor.take (c : Cursor) (count : Nat) : Except DecodeError (Cursor × Cursor) :=
  match c.bytes.split? count with
  | none => c.fail .truncated
  | some (front, rest) => .ok (⟨c.offset, front⟩, ⟨c.offset + count, rest⟩)

/-- A tag, held as the number its bytes spell. -/
structure Tag where
  number : UInt32
  deriving DecidableEq, Repr

namespace Tag

def maxLength : Nat := 4

/-- The number of bytes: the fewest that hold the number, and at least one. -/
def length (t : Tag) : Nat :=
  let n := t.number.toNat
  if n < 0x100 then 1 else if n < 0x10000 then 2 else if n < 0x1000000 then 3 else 4

def toBytes (t : Tag) : Bytes := Bytes.fixed t.length t.number.toNat

def firstByte (t : Tag) : UInt8 := UInt8.ofNat (t.number.toNat / Nat.pow 256 (t.length - 1))

/-- Whether a leading byte marks an element that holds other elements. -/
def marksConstructed (byte : UInt8) : Bool := byte &&& 0x20 != 0

/-- Whether a leading byte announces further tag bytes. -/
def marksLong (byte : UInt8) : Bool := byte &&& 0x1F == 0x1F

/-- Whether a later tag byte announces yet another one. -/
def marksMore (byte : UInt8) : Bool := byte &&& 0x80 != 0

def isConstructed (t : Tag) : Bool := marksConstructed t.firstByte

def display (t : Tag) : String := Hex.encodeUpper t.toBytes

/-- Read the bytes after the first, of which `room` may come, onto the number
read so far.  `start` is the offset of the tag, where one that is too long is
reported. -/
def readMore (start : Nat) : (room : Nat) → (number : Nat) → Cursor → Except DecodeError (Tag × Cursor)
  | 0, _, _ => .error ⟨start, .tagTooLong⟩
  | room + 1, number, c => do
    let (byte, c) ← c.next
    let number := number * 256 + byte.toNat
    if marksMore byte then readMore start room number c else .ok (⟨UInt32.ofNat number⟩, c)

def read (c : Cursor) : Except DecodeError (Tag × Cursor) := do
  let (first, rest) ← c.next
  if marksLong first then readMore c.offset (maxLength - 1) first.toNat rest
  else .ok (⟨UInt32.ofNat first.toNat⟩, rest)

/-- The bytes that spell a tag: one byte whose five low bits are not all set, or
two to four of which the first has them set, each middle byte has bit `80` and
the last one has not. -/
inductive Spelling : Bytes → Prop where
  | short (first : UInt8) (h : marksLong first = false) : Spelling [first]
  | long (first : UInt8) (middle : Bytes) (last : UInt8)
      (hfirst : marksLong first = true) (hmiddle : ∀ b ∈ middle, marksMore b = true)
      (hlast : marksMore last = false) (hroom : middle.length ≤ 2) :
      Spelling (first :: (middle ++ [last]))

/-- A tag whose bytes read back as this tag. -/
def Decodable (t : Tag) : Prop := Spelling t.toBytes

/-! ## The universal tags in use -/

def integer : Tag := ⟨0x02⟩
def octetString : Tag := ⟨0x04⟩
def objectIdentifier : Tag := ⟨0x06⟩
def utf8String : Tag := ⟨0x0C⟩
def printableString : Tag := ⟨0x13⟩
def ia5String : Tag := ⟨0x16⟩
def sequence : Tag := ⟨0x30⟩
def set : Tag := ⟨0x31⟩

end Tag
end Tlv
end CardAccess
