import CardAccess.Messaging.Error

/-!
# Responses

A response of a card is data followed by two bytes of status.
-/

namespace CardAccess
namespace Messaging

structure Response where
  data : Bytes
  status : UInt16
  deriving DecidableEq, Repr

namespace Response

def statusLength : Nat := 2

def success : UInt16 := 0x9000

def isSuccess (r : Response) : Bool := r.status = success

def statusBytes (status : UInt16) : Bytes := Bytes.fixed statusLength status.toNat

def toBytes (r : Response) : Bytes := r.data ++ statusBytes r.status

/-- Read a response: the last two bytes are the status. -/
def ofBytes (bytes : Bytes) : Except Error Response :=
  if bytes.length < statusLength then .error (.invalidResponseLength bytes.length)
  else
    let nr := bytes.length - statusLength
    .ok ⟨bytes.take nr, UInt16.ofNat (Bytes.toNat (bytes.drop nr))⟩

end Response
end Messaging
end CardAccess
