import CardAccess.Tlv.Parser

/-!
# Object identifiers

An object identifier is a list of numbers, its arcs.  It is held as the content
bytes of its element: the first byte is forty times the first arc plus the
second, and every further arc follows in base 128, each byte but the last with
bit `80`.  `ofBytes` checks content bytes, `ofText` reads dotted decimal text and
`toText` writes it.

The writer of one arc fills a room of bytes from the right with groups of seven
bits while more than `80` remains and puts what is left into the first byte of
the room.  Bytes between the two stay zero, so an arc of exactly `80` is written
`80 00` and not every text comes back from its bytes.
-/

namespace CardAccess

/-- An object identifier, by its content bytes. -/
structure ObjectId where
  content : Bytes
  deriving DecidableEq, Repr

namespace ObjectId

/-- Why bytes or a text are no object identifier. -/
inductive Error where
  | arcInvalid (arc : Nat)
  | arcTooBig
  | base128
  | digitExpected (byte : UInt8)
  | empty
  | length
  | notEnoughArcs
  | trailingDot
  deriving DecidableEq, Repr

def Error.message : Error → String
  | .arcInvalid arc => "OID contains out-of-range arc: " ++ toString arc
  | .arcTooBig => "OID contains arc which is larger than 32-bits"
  | .base128 => "OID contains arc with invalid base 128 encoding"
  | .digitExpected byte => "expected digit, got '" ++ (Char.ofNat byte.toNat).toString ++ "'"
  | .empty => "OID value is empty"
  | .length => "OID length invalid"
  | .notEnoughArcs => "OID requires minimum of 3 arcs"
  | .trailingDot => "OID ends with invalid trailing '.'"

def maxLength : Nat := 39

def maxFirst : Nat := 2

def maxSecond : Nat := 39

/-! ## Arcs from bytes -/

/-- Read one arc of which `count` bytes have given `value` so far.  Arcs are 32
bits wide: from the fifth byte on, a byte with any of the bits `F0` is too much. -/
def readArc : (count value : Nat) → Bytes → Except Error (Nat × Bytes)
  | _, _, [] => .error .base128
  | count, value, byte :: rest =>
    if count + 1 > 4 ∧ byte &&& 0xF0 ≠ 0 then .error .arcTooBig
    else
      let value := (value * 128 + byte.toNat % 128) % 2 ^ 32
      if byte &&& 0x80 = 0 then .ok (value, rest) else readArc (count + 1) value rest

/-- Read arcs until no byte is left.  The fuel is the number of bytes, of which
each arc takes one or more. -/
def readArcs : (fuel : Nat) → Bytes → Except Error (List Nat)
  | _, [] => .ok []
  | 0, _ :: _ => .error .base128
  | fuel + 1, bytes => do
    let (arc, rest) ← readArc 0 0 bytes
    let arcs ← readArcs fuel rest
    .ok (arc :: arcs)

/-- The arcs that content bytes spell. -/
def arcsOf : Bytes → Except Error (List Nat)
  | [] => .error .empty
  | first :: rest =>
    if first.toNat / 40 > maxFirst then .error (.arcInvalid (first.toNat / 40))
    else do
      let arcs ← readArcs rest.length rest
      .ok (first.toNat / 40 :: first.toNat % 40 :: arcs)

/-- The object identifier with the given content bytes, which are kept as they
are, also where an arc is not written minimally. -/
def ofBytes (content : Bytes) : Except Error ObjectId := do
  if content.isEmpty then .error .empty
  else if content.length < 3 ∨ maxLength < content.length then .error .notEnoughArcs
  else
    let _ ← arcsOf content
    .ok ⟨content⟩

/-! ## Arcs from text -/

/-- The bytes an arc needs beyond the first. -/
def extraBytes (arc : Nat) : Nat :=
  if arc ≤ 0x7F then 0 else if arc ≤ 0x3FFF then 1 else if arc ≤ 0x1FFFFF then 2
  else if arc ≤ 0x1FFFFFFF then 3 else 4

/-- Write an arc into a room of `position + 1` bytes in front of `tail`.
`more` says that a group has been written already, whence the next carries bit
`80`. -/
def writeArc : (position arc : Nat) → (more : Bool) → Bytes → Except Error Bytes
  | position, arc, more, tail =>
    if arc > 0x80 then
      let group := UInt8.ofNat (arc % 128) ||| (if more then 0x80 else 0)
      match position with
      | 0 => .error .base128
      | position + 1 => writeArc position (arc / 128) true (group :: tail)
    else
      let group := UInt8.ofNat arc ||| (if more then 0x80 else 0)
      .ok (group :: (Bytes.zeros position ++ tail))

/-- What has been written of an identifier. -/
inductive Draft where
  | start
  | first (arc : Nat)
  | body (content : Bytes)

def Draft.push : Draft → Nat → Except Error Draft
  | .start, arc => if arc > maxFirst then .error (.arcInvalid arc) else .ok (.first arc)
  | .first root, arc =>
    if arc > maxSecond then .error (.arcInvalid arc)
    else .ok (.body [UInt8.ofNat (root * 40 + arc)])
  | .body content, arc =>
    if content.length + extraBytes arc + 1 ≥ maxLength then .error .length
    else (writeArc (extraBytes arc) arc false []).map fun bytes => .body (content ++ bytes)

/-- Read the rest of a dotted text, where `arc` is the arc read so far.  Arcs
are 32 bits wide and an empty one is zero. -/
def readText : (text : Bytes) → (arc : Nat) → Draft → Except Error Draft
  | [], arc, draft => draft.push arc
  | byte :: rest, arc, draft =>
    if 0x30 ≤ byte.toNat ∧ byte.toNat ≤ 0x39 then
      readText rest ((arc * 10 + (byte.toNat - 0x30)) % 2 ^ 32) draft
    else if byte = 0x2E then
      if rest.isEmpty then .error .trailingDot
      else
        match draft.push arc with
        | .error e => .error e
        | .ok draft => readText rest 0 draft
    else .error (.digitExpected byte)

def ofText (text : String) : Except Error ObjectId :=
  match text.toUTF8.toList with
  | [] => .error .empty
  | first :: rest =>
    if 0x30 ≤ first.toNat ∧ first.toNat ≤ 0x39 then
      match readText (first :: rest) 0 .start with
      | .error e => .error e
      | .ok (.body content) =>
        if content.length < 2 then .error .notEnoughArcs else .ok ⟨content⟩
      | .ok _ => .error .notEnoughArcs
    else .error (.digitExpected first)

def toText (id : ObjectId) : String :=
  match arcsOf id.content with
  | .ok arcs => ".".intercalate (arcs.map toString)
  | .error _ => ""

/-! ## Elements -/

def toTlv (id : ObjectId) : Tlv := .primitive Tlv.Tag.objectIdentifier id.content

end ObjectId
end CardAccess
