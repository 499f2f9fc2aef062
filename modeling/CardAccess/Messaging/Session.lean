import CardAccess.Messaging.DataObject
import CardAccess.Messaging.Response

/-!
# The host's side of a session

A session is the keys, until they are discarded, and the counter.  The counter
advances before each command is protected and before each response is opened.  A
response with a missing or wrong checksum costs the session its keys, and every
later call fails.  Every operation returns the session with the result.
-/

namespace CardAccess
namespace Messaging

/-! ## Commands -/

/-- The objects of a protected command that the checksum covers. -/
def coveredObjects (keys : SessionKeys) (counter : Counter) (c : Command) : List Tlv :=
  let data :=
    if c.nc = 0 then []
    else [DataObject.cryptogram c.ins (keys.encrypt counter c.content)]
  let expected := (DataObject.expectedValue? c.isExtended c.ne).toList.map
    (Tlv.primitive DataObject.expectedTag)
  data ++ expected

def protectedHeader (c : Command) : Bytes :=
  [c.cla ||| DataObject.protectedClass, c.ins, c.p1, c.p2]

/-- The bytes over which the checksum of a command is computed. -/
def checksumInput (keys : SessionKeys) (counter : Counter) (c : Command) : Bytes :=
  DataObject.commandInput (protectedHeader c) (coveredObjects keys counter c)

/-- The data of a protected command: the covered objects and the checksum. -/
def protectedData (keys : SessionKeys) (counter : Counter) (c : Command) : Bytes :=
  let checksum := keys.checksum counter (checksumInput keys counter c)
  Tlv.encodeAll
    (coveredObjects keys counter c ++ [.primitive DataObject.checksumTag checksum])

/-- The expected length of a protected command: the greatest of the short ones,
or of the extended ones if the command asks in two bytes or its data is long. -/
def protectedExpected (c : Command) (data : Bytes) : UInt32 :=
  let wide := (DataObject.expectedValue? c.isExtended c.ne).any fun value => value.length = 2
  if wide || Command.shortDataMax < data.length then Command.extendedExpectedMax
  else Command.shortExpectedMax

/-- The protected form of a command at a position of the counter. -/
def protect (keys : SessionKeys) (counter : Counter) (c : Command) : Except Error Command :=
  let data := protectedData keys counter c
  if Command.extendedDataMax < data.length then .error (.dataTooLong data.length)
  else .ok ⟨c.cla ||| DataObject.protectedClass, c.ins, c.p1, c.p2, some data,
    some (protectedExpected c data)⟩

/-! ## Responses -/

/-- The objects of a protected response, each at most once, and those among them
that the checksum covers, in the order received. -/
structure ResponseObjects where
  cryptogram : Option Tlv
  status : Option Tlv
  checksum : Option Tlv
  covered : List Tlv
  deriving DecidableEq, Repr

namespace ResponseObjects

def empty : ResponseObjects := ⟨none, none, none, []⟩

/-- Add an object that must not be there yet. -/
def add (objects : ResponseObjects) (object : Tlv) : Except Error ResponseObjects :=
  let duplicate := Except.error (.duplicateDataObject object.tag)
  let covered := objects.covered ++ [object]
  if DataObject.isCryptogram object then
    if objects.cryptogram.isSome then duplicate
    else .ok { objects with cryptogram := some object, covered := covered }
  else if object.tag = DataObject.statusTag then
    if objects.status.isSome then duplicate
    else .ok { objects with status := some object, covered := covered }
  else if object.tag = DataObject.checksumTag then
    if objects.checksum.isSome then duplicate
    else .ok { objects with checksum := some object }
  else .error (.unexpectedDataObject object.tag)

def ofResponse (r : Response) : Except Error ResponseObjects := do
  if r.data.isEmpty then .error .notEncrypted
  else
    let objects ← (Tlv.parseAll r.data).mapError .tlv
    objects.foldlM add empty

/-- Check the checksum, which must be there and must not be empty. -/
def verify (objects : ResponseObjects) (keys : SessionKeys) (counter : Counter) :
    Except Error Unit :=
  match objects.checksum.map Tlv.value with
  | none | some [] => .error .missingChecksum
  | some received => keys.verify counter (DataObject.responseInput objects.covered) received

/-- The decrypted data, empty if there is none. -/
def plain (objects : ResponseObjects) (keys : SessionKeys) (counter : Counter) :
    Except Error Bytes :=
  match objects.cryptogram.map DataObject.encryptedOf with
  | none | some [] => .ok []
  | some encrypted => keys.decrypt counter encrypted

/-- The response that the objects stand for: the decrypted data and the protected
status, or the status outside if there is no protected one. -/
def response (objects : ResponseObjects) (keys : SessionKeys) (counter : Counter)
    (outer : UInt16) : Except Error Response := do
  let plain ← objects.plain keys counter
  let status := match objects.status with
    | some object => object.value
    | none => Response.statusBytes outer
  Response.ofBytes (plain ++ status)

end ResponseObjects

/-! ## Sessions -/

/-- The host's side of a session. -/
structure Session where
  keys : Option SessionKeys
  counter : MarkedCounter
  deriving DecidableEq, Repr

namespace Session

def start (keys : SessionKeys) (counter : Counter) : Session := ⟨some keys, .start counter⟩

/-- Whether the session still has its keys. -/
def isValid (s : Session) : Bool := s.keys.isSome

def advance (s : Session) : Session := { s with counter := s.counter.advance }

def setMark (s : Session) : Session := { s with counter := s.counter.setMark }

def rewind (s : Session) : Session := { s with counter := s.counter.rewind }

def discardKeys (s : Session) : Session := { s with keys := none }

def encipher (s : Session) (c : Command) : Except Error Command × Session :=
  match s.keys with
  | none => (.error .keysInvalidated, s)
  -- a command that turns out too long has used up its value of the counter
  | some keys => (protect keys s.advance.counter.current c, s.advance)

/-- Verify and open a protected response. -/
def decipher (s : Session) (r : Response) : Except Error Response × Session :=
  match s.keys with
  | none => (.error .keysInvalidated, s)
  | some keys =>
    let s := s.advance
    match ResponseObjects.ofResponse r with
    | .error e => (.error e, s)
    | .ok objects =>
      -- objects that cannot be read have not cost the keys, but a checksum that fails does
      match objects.verify keys s.counter.current with
      | .error e => (.error e, s.discardKeys)
      | .ok () => (objects.response keys s.counter.current r.status, s)

end Session
end Messaging
end CardAccess
