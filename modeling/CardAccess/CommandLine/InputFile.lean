import CardAccess.Hex

/-!
# Input files

A file holds bytes as they are or their hexadecimal digits, which may be broken
up by blanks.  Which of the two it is, is told by the bytes alone.
-/

namespace CardAccess
namespace CommandLine
namespace InputFile

def isBlank (byte : UInt8) : Bool :=
  byte = 0x20 || byte = 0x09 || byte = 0x0A || byte = 0x0C || byte = 0x0D

def isDigits (bytes : Bytes) : Bool :=
  !bytes.isEmpty && bytes.all fun byte => (Hex.value? byte).isSome || isBlank byte

/-- What a file stands for. -/
def decode (bytes : Bytes) : Except Hex.Error Bytes :=
  if isDigits bytes then Hex.decode (bytes.filter fun byte => !isBlank byte) else .ok bytes

end InputFile
end CommandLine
end CardAccess
