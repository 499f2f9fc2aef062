import CardAccess.Tlv.Tag

/-!
# Failures of secure messaging

Each constructor is a cause; the wording is in `message`.
-/

namespace CardAccess
namespace Messaging

/-- Why a command or a response cannot be built, protected or read. -/
inductive Error where
  | invalidKeyLength (length : Nat)
  | keyLengthMismatch
  | keysInvalidated
  | invalidCommandLength (length : Nat)
  | invalidResponseLength (length : Nat)
  | dataTooLong (length : Nat)
  | notEncrypted
  | tlv (e : Tlv.DecodeError)
  | duplicateDataObject (tag : Tlv.Tag)
  | unexpectedDataObject (tag : Tlv.Tag)
  | missingChecksum
  | checksumMismatch
  | padding
  | emptyBatch
  | missingResponses
  | illegalPhaseTransition
  deriving DecidableEq, Repr

def Error.message : Error → String
  | .invalidKeyLength length => "invalid AES key length " ++ toString length
  | .keyLengthMismatch => "encryption and MAC keys differ in length"
  | .keysInvalidated => "session keys invalidated"
  | .invalidCommandLength length => "invalid command length: " ++ toString length
  | .invalidResponseLength length => "invalid response length: " ++ toString length
  | .dataTooLong length => "command data too long: " ++ toString length ++ " bytes"
  | .notEncrypted => "response is not encrypted"
  | .tlv e => "malformed secure messaging data: " ++ e.message
  | .duplicateDataObject tag => "duplicate data object " ++ tag.display
  | .unexpectedDataObject tag => "unrecognized data object " ++ tag.display
  | .missingChecksum => "no checksum received from card"
  | .checksumMismatch => "checksum not verified"
  | .padding => "invalid padding"
  | .emptyBatch => "empty command batch"
  | .missingResponses => "responses missing"
  | .illegalPhaseTransition => "change from post to prepare phase not permitted"

end Messaging
end CardAccess
