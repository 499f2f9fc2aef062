import CardAccess.Messaging.DataObject
import CardAccess.Messaging.Response

/-!
# The card's side of a session

The card undoes what the host does to a command and protects its response in the
way that the host undoes.  Its counter advances before each of the two.
-/

namespace CardAccess
namespace Messaging

/-- What a card has read of a protected command: the plain command, the objects
that the checksum covers, and the checksum. -/
structure ReceivedCommand where
  plain : Command
  covered : List Tlv
  checksum : Option Bytes
  deriving DecidableEq, Repr

/-- Take up one object of a protected command. -/
def ReceivedCommand.add (keys : SessionKeys) (counter : Counter) (r : ReceivedCommand)
    (object : Tlv) : Except Error ReceivedCommand := do
  let covered := r.covered ++ [object]
  if DataObject.isCryptogram object then
    let data ← keys.decrypt counter (DataObject.encryptedOf object)
    .ok { r with plain := { r.plain with data := some data }, covered := covered }
  else if object.tag = DataObject.expectedTag then
    let expected ← DataObject.expectedOf object
    .ok { r with plain := { r.plain with expected := some expected }, covered := covered }
  else if object.tag = DataObject.checksumTag then
    .ok { r with checksum := some object.value }
  else .error (.unexpectedDataObject object.tag)

/-- The card's side of a session. -/
structure Card where
  keys : SessionKeys
  counter : Counter
  deriving DecidableEq, Repr

namespace Card

def unprotect (keys : SessionKeys) (counter : Counter) (c : Command) : Except Error Command := do
  let objects ← (Tlv.parseAll c.content).mapError .tlv
  let plain : Command := ⟨c.cla &&& ~~~DataObject.protectedClass, c.ins, c.p1, c.p2, none, none⟩
  let received ← objects.foldlM (ReceivedCommand.add keys counter) ⟨plain, [], none⟩
  match received.checksum with
  | none => .error .missingChecksum
  | some checksum =>
    keys.verify counter (DataObject.commandInput c.header received.covered) checksum
    .ok received.plain

/-- Verify and open a protected command. -/
def receive (card : Card) (c : Command) : Except Error Command × Card :=
  let card := { card with counter := card.counter.next }
  (unprotect card.keys card.counter c, card)

def coveredObjects (keys : SessionKeys) (counter : Counter) (r : Response) : List Tlv :=
  let data :=
    if r.data.isEmpty then []
    else [DataObject.cryptogram 0 (keys.encrypt counter r.data)]
  data ++ [.primitive DataObject.statusTag (Response.statusBytes r.status)]

def respond (card : Card) (r : Response) : Response × Card :=
  let card := { card with counter := card.counter.next }
  let covered := coveredObjects card.keys card.counter r
  let checksum := card.keys.checksum card.counter (DataObject.responseInput covered)
  let objects := covered ++ [.primitive DataObject.checksumTag checksum]
  (⟨Tlv.encodeAll objects, r.status⟩, card)

end Card
end Messaging
end CardAccess
