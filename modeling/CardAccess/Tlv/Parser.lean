import CardAccess.Tlv.Tree

/-!
# Reading elements

`read levels` reads one element that may be `levels` deep and calls itself with
one level less for the elements inside.  The list of elements in a value is read
by `readAll`, whose fuel is the number of bytes: every element takes at least
one.  `Encodes` is the grammar that the reader follows, said as a relation
between trees and byte strings.
-/

namespace CardAccess
namespace Tlv

def readAll (readOne : Cursor → Except DecodeError (Tlv × Cursor)) :
    (fuel : Nat) → Cursor → Except DecodeError (List Tlv)
  | _, ⟨_, []⟩ => .ok []
  | 0, c => c.fail .trailingData
  | fuel + 1, c => do
    let (element, c) ← readOne c
    let others ← readAll readOne fuel c
    .ok (element :: others)

/-- Read one element of at most `levels` levels. -/
def read : (levels : Nat) → Cursor → Except DecodeError (Tlv × Cursor)
  | 0, c => c.fail .tooDeep
  | levels + 1, c => do
    let (tag, c) ← Tag.read c
    let (length, c) ← Length.read c
    let (value, rest) ← c.take length
    if tag.isConstructed then
      let children ← readAll (read levels) value.bytes.length value
      .ok (.constructed tag children, rest)
    else .ok (.primitive tag value.bytes, rest)

/-- Read exactly one element that spans the whole input. -/
def parse (input : Bytes) : Except DecodeError Tlv := do
  if input.isEmpty then .error ⟨0, .empty⟩
  else
    let (element, rest) ← read maxLevels ⟨0, input⟩
    if rest.bytes.isEmpty then .ok element else rest.fail .trailingData

def parseAll (input : Bytes) : Except DecodeError (List Tlv) :=
  readAll (read maxLevels) input.length ⟨0, input⟩

/-- An element from a tag and the bytes of its value, which are read as elements
if the tag says so. -/
def ofValue (tag : Tag) (value : Bytes) : Except DecodeError Tlv :=
  if tag.isConstructed then (parseAll value).map (.constructed tag)
  else .ok (.primitive tag value)

/-- The element with another value, read as elements if the content is a list of
elements. -/
def setValue (t : Tlv) (value : Bytes) : Except DecodeError Tlv :=
  match t with
  | .primitive tag _ => .ok (.primitive tag value)
  | .constructed tag _ => (parseAll value).map (.constructed tag)

mutual

/-- `Encodes t b`: the byte string `b` is an encoding of `t`, that is the bytes of
a decodable tag, a length field of any form that states the number of value
bytes, and then the value itself: raw, or encodings of the children in order and
nothing else. -/
inductive Encodes : Tlv → Bytes → Prop where
  | primitive (tag : Tag) (value field : Bytes) (htag : tag.Decodable)
      (hkind : tag.isConstructed = false) (hfield : Length.Field value.length field) :
      Encodes (.primitive tag value) (tag.toBytes ++ (field ++ value))
  | constructed (tag : Tag) (children : List Tlv) (value field : Bytes) (htag : tag.Decodable)
      (hkind : tag.isConstructed = true) (hfield : Length.Field value.length field)
      (hvalue : EncodesAll children value) :
      Encodes (.constructed tag children) (tag.toBytes ++ (field ++ value))

/-- `EncodesAll ts b`: the byte string `b` is encodings of the elements `ts` one
after the other. -/
inductive EncodesAll : List Tlv → Bytes → Prop where
  | nil : EncodesAll [] []
  | cons (t : Tlv) (ts : List Tlv) (front rest : Bytes) (head : Encodes t front)
      (tail : EncodesAll ts rest) : EncodesAll (t :: ts) (front ++ rest)

end

end Tlv
end CardAccess
