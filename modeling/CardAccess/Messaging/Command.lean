import CardAccess.Messaging.Error

/-!
# Commands

A command to a card has a header of four bytes, may carry data and may say how
many bytes of response it expects.  A short command writes both lengths in one
byte, an extended one in two bytes behind a zero byte; the largest expected
length of either form is written as zero.
-/

namespace CardAccess
namespace Messaging

/-- A command.  `expected` is the greatest number of response bytes, if any are
wanted. -/
structure Command where
  cla : UInt8
  ins : UInt8
  p1 : UInt8
  p2 : UInt8
  data : Option Bytes
  expected : Option UInt32
  deriving DecidableEq, Repr

namespace Command

def shortDataMax : Nat := 255

def extendedDataMax : Nat := 65535

def shortExpectedMax : UInt32 := 256

def extendedExpectedMax : UInt32 := 65536

/-- The four bytes that say what to do. -/
def header (c : Command) : Bytes := [c.cla, c.ins, c.p1, c.p2]

def content (c : Command) : Bytes := c.data.getD []

/-- The number of data bytes. -/
def nc (c : Command) : Nat := c.content.length

/-- The number of expected bytes, zero if none are. -/
def ne (c : Command) : UInt32 := c.expected.getD 0

/-- Whether the lengths do not fit a short command. -/
def isExtended (c : Command) : Bool := shortDataMax < c.nc || shortExpectedMax < c.ne

/-! ## Writing -/

/-- The data with its length in front, nothing for empty data. -/
def dataField (extended : Bool) (data : Bytes) : Bytes :=
  if data.isEmpty then []
  else if extended then 0 :: (Bytes.fixed 2 data.length ++ data)
  else UInt8.ofNat data.length :: data

/-- The expected length.  In an extended command without data a zero byte in
front marks it as extended. -/
def expectedField (extended : Bool) (nc : Nat) (expected : UInt32) : Bytes :=
  if extended then
    let field := Bytes.fixed 2 (if extendedExpectedMax ≤ expected then 0 else expected.toNat)
    if nc = 0 then 0 :: field else field
  else [if shortExpectedMax ≤ expected then 0 else expected.toUInt8]

/-- The bytes of a command, whose data must fit an extended command. -/
def toBytes (c : Command) : Except Error Bytes :=
  if extendedDataMax < c.nc then .error (.dataTooLong c.nc)
  else
    let expected := match c.expected with
      | none => []
      | some expected => expectedField c.isExtended c.nc expected
    .ok (c.header ++ dataField c.isExtended c.content ++ expected)

/-! ## Reading -/

def shortExpected (byte : UInt8) : UInt32 :=
  if byte = 0 then shortExpectedMax else byte.toUInt32

def extendedExpected (high low : UInt8) : UInt32 :=
  if high = 0 ∧ low = 0 then extendedExpectedMax else high.toUInt32 * 256 + low.toUInt32

/-- What follows the header: the data and the expected length. -/
structure Body where
  data : Option Bytes
  expected : Option UInt32
  deriving DecidableEq, Repr

/-- Read `nc` bytes of data and an expected length of one byte or none. -/
def Body.readShort (nc : Nat) (bytes : Bytes) : Option Body := do
  let (data, rest) ← bytes.split? nc
  match rest with
  | [] => some ⟨some data, none⟩
  | [byte] => some ⟨some data, some (shortExpected byte)⟩
  | _ => none

def Body.readExtended (nc : Nat) (bytes : Bytes) : Option Body := do
  let (data, rest) ← bytes.split? nc
  match rest with
  | [] => some ⟨some data, none⟩
  | [high, low] => some ⟨some data, some (extendedExpected high low)⟩
  | _ => none

/-- Read what follows the header.  A first byte of zero, if it is not all there
is, says that the lengths are extended. -/
def Body.read : Bytes → Option Body
  | [] => some ⟨none, none⟩
  | [byte] => some ⟨none, some (shortExpected byte)⟩
  | first :: rest =>
    if first ≠ 0 then readShort first.toNat rest
    else
      match rest with
      | [high, low] => some ⟨none, some (extendedExpected high low)⟩
      | high :: low :: rest =>
        let nc := high.toNat * 256 + low.toNat
        if nc = 0 then none else readExtended nc rest
      | _ => none

def ofBytes (bytes : Bytes) : Except Error Command :=
  match bytes with
  | cla :: ins :: p1 :: p2 :: rest =>
    match Body.read rest with
    | some body => .ok ⟨cla, ins, p1, p2, body.data, body.expected⟩
    | none => .error (.invalidCommandLength bytes.length)
  | _ => .error (.invalidCommandLength bytes.length)

def display (c : Command) : String :=
  let data := match c.data with
    | none => ""
    | some data => " [" ++ toString data.length ++ "] " ++ Hex.encodeUpper data
  let expected := match c.expected with
    | none => ""
    | some expected => " Ne=" ++ toString expected.toNat
  Hex.encodeUpper c.header ++ data ++ expected

end Command
end Messaging
end CardAccess
