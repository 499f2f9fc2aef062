import CardAccess.Bytes
import CardAccess.Text.Quoted

/-!
# Hexadecimal text

Two digits stand for one byte, the high half first.  Writing is in lower or
upper case, reading takes either, and a digit is recognised by its byte so that
text and files are read by one rule.
-/

namespace CardAccess
namespace Hex

def digit (n : Nat) : Char :=
  Char.ofNat (if n < 10 then 0x30 + n else 0x61 + (n - 10))

def upperDigit (n : Nat) : Char :=
  Char.ofNat (if n < 10 then 0x30 + n else 0x41 + (n - 10))

/-- The value of the digit that `byte` is the ASCII code of, in either case. -/
def value? (byte : UInt8) : Option Nat :=
  let n := byte.toNat
  if 0x30 ≤ n ∧ n ≤ 0x39 then some (n - 0x30)
  else if 0x41 ≤ n ∧ n ≤ 0x46 then some (n - 0x41 + 10)
  else if 0x61 ≤ n ∧ n ≤ 0x66 then some (n - 0x61 + 10)
  else none

def digitsWith (digit : Nat → Char) (bytes : Bytes) : List Char :=
  bytes.flatMap fun byte => [digit (byte.toNat / 16), digit (byte.toNat % 16)]

def encode (bytes : Bytes) : String := String.ofList (digitsWith digit bytes)

def encodeUpper (bytes : Bytes) : String := String.ofList (digitsWith upperDigit bytes)

/-- Why a text is not hexadecimal. -/
inductive Error where
  | oddLength
  | invalidCharacter (byte : UInt8) (position : Nat)
  deriving DecidableEq, Repr

def Error.message : Error → String
  | .oddLength => "Odd number of digits"
  | .invalidCharacter byte position =>
    "Invalid character " ++ Text.quotedSingle (Char.ofNat byte.toNat) ++ " at position "
      ++ toString position

/-- Read pairs of digits, the first at `position` in the whole text. -/
def decodePairs : (position : Nat) → Bytes → Except Error Bytes
  | _, [] => .ok []
  | _, [_] => .error .oddLength
  | position, high :: low :: rest =>
    match value? high with
    | none => .error (.invalidCharacter high position)
    | some h =>
      match value? low with
      | none => .error (.invalidCharacter low (position + 1))
      | some l =>
        match decodePairs (position + 2) rest with
        | .ok bytes => .ok (UInt8.ofNat (16 * h + l) :: bytes)
        | .error e => .error e

/-- Read the bytes of a hexadecimal text, given as ASCII codes.  An odd number
of digits is reported before any digit is looked at. -/
def decode (text : Bytes) : Except Error Bytes :=
  if text.length % 2 = 1 then .error .oddLength else decodePairs 0 text

end Hex
end CardAccess
