import CardAccess.Certificate.Layout
import CardAccess.Error

/-!
# Holder authorization

A CHAT says in which role a terminal acts and, bit by bit, what it may do.  The
role fixes how many bytes of authorization there are, so a `Chat` is only built
through `create`.
-/

namespace CardAccess

/-- A role and its authorization bits. -/
structure Chat where
  role : ObjectId
  authorization : Bytes
  deriving DecidableEq, Repr

namespace Chat

/-- The role of inspection systems, `0.4.0.127.0.7.3.1.2.1`. -/
def inspectionSystems : ObjectId := ⟨[0x04, 0x00, 0x7F, 0x00, 0x07, 0x03, 0x01, 0x02, 0x01]⟩

/-- The role of authentication terminals, `0.4.0.127.0.7.3.1.2.2`. -/
def authenticationTerminals : ObjectId :=
  ⟨[0x04, 0x00, 0x7F, 0x00, 0x07, 0x03, 0x01, 0x02, 0x02]⟩

/-- The role of signature terminals, `0.4.0.127.0.7.3.1.2.3`. -/
def signatureTerminals : ObjectId := ⟨[0x04, 0x00, 0x7F, 0x00, 0x07, 0x03, 0x01, 0x02, 0x03]⟩

def authorizationLength? (role : ObjectId) : Option Nat :=
  if role = authenticationTerminals then some 5
  else if role = inspectionSystems ∨ role = signatureTerminals then some 1
  else none

/-- The authorization for a known role in the right length. -/
def create (role : ObjectId) (authorization : Bytes) : Except Error Chat :=
  match authorizationLength? role with
  | none => .error (.invalidCertificate .unknownRole)
  | some length =>
    if authorization.length ≠ length then .error (.invalidCertificate .authorizationLength)
    else .ok ⟨role, authorization⟩

def ofTlv (node : Tlv) : Except Error Chat := do
  if node.tag ≠ Layout.chat then .error (.invalidCertificate .notChat)
  else
    match node.first? Tlv.Tag.objectIdentifier with
    | none => .error (.missingElement "CHAT role")
    | some roleNode =>
      let role ← roleNode.toObjectId.mapError .tlv
      match node.first? Layout.discretionaryData with
      | none => .error (.missingElement "CHAT relative authorization")
      | some bits => create role bits.value

def ofBytes (bytes : Bytes) : Except Error Chat := do
  ofTlv (← (Tlv.parse bytes).mapError .ofDecode)

def toTlv (chat : Chat) : Tlv :=
  .constructed Layout.chat
    [chat.role.toTlv, .primitive Layout.discretionaryData chat.authorization]

def encode (chat : Chat) : Bytes := chat.toTlv.encode

end Chat
end CardAccess
