import CardAccess.Messaging.Command
import CardAccess.Messaging.SessionKeys
import CardAccess.Tlv.Parser

/-!
# Data objects of secure messaging

The data of a protected command or response is a list of elements: encrypted
data, the expected length of a command or the status of a response, and last the
checksum.  The checksum covers what comes before it, padded to whole blocks.
-/

namespace CardAccess
namespace Messaging
namespace DataObject

/-- Encrypted data behind a byte that names the padding. -/
def cryptogramTag : Tlv.Tag := ⟨0x87⟩

/-- Encrypted data alone, used with odd instructions. -/
def oddCryptogramTag : Tlv.Tag := ⟨0x85⟩

def expectedTag : Tlv.Tag := ⟨0x97⟩

def statusTag : Tlv.Tag := ⟨0x99⟩

def checksumTag : Tlv.Tag := ⟨0x8E⟩

/-- The byte that names the padding in front of encrypted data. -/
def paddingIndicator : UInt8 := 0x01

/-- The bits of the class byte that say that a command is protected. -/
def protectedClass : UInt8 := 0x0C

def isCryptogram (object : Tlv) : Bool :=
  object.tag = cryptogramTag || object.tag = oddCryptogramTag

/-- The object of encrypted data that goes with an instruction. -/
def cryptogram (ins : UInt8) (encrypted : Bytes) : Tlv :=
  if ins % 2 = 0 then .primitive cryptogramTag (paddingIndicator :: encrypted)
  else .primitive oddCryptogramTag encrypted

/-- The encrypted data in an object, without the byte that names the padding. -/
def encryptedOf (object : Tlv) : Bytes :=
  if object.tag = cryptogramTag then object.value.drop 1 else object.value

/-- How an expected length is written: in as many bytes as in the command, and
not at all if it is zero. -/
def expectedValue? (extended : Bool) (ne : UInt32) : Option Bytes :=
  if ne = 0 then none
  else if ne = Command.shortExpectedMax ∧ extended = false then some [0]
  else if ne = Command.extendedExpectedMax then some [0, 0]
  else if extended then some (Bytes.fixed 2 ne.toNat)
  else some [ne.toUInt8]

/-- Read an expected length as `expectedValue?` writes it. -/
def expectedOf (object : Tlv) : Except Error UInt32 :=
  match object.value with
  | [byte] => .ok (Command.shortExpected byte)
  | [high, low] => .ok (Command.extendedExpected high low)
  | value => .error (.invalidCommandLength value.length)

/-- The header of a command as the checksum covers it. -/
def paddedHeader (header : Bytes) : Bytes := Cipher.Padding.pad header

/-- What the checksum of a command covers: the padded header, and the padded
objects if there are any. -/
def commandInput (header : Bytes) (objects : List Tlv) : Bytes :=
  if objects.isEmpty then paddedHeader header
  else Cipher.Padding.pad (paddedHeader header ++ Tlv.encodeAll objects)

/-- What the checksum of a response covers: the padded objects. -/
def responseInput (objects : List Tlv) : Bytes := Cipher.Padding.pad (Tlv.encodeAll objects)

end DataObject
end Messaging
end CardAccess
