import CardAccess.Cipher.Block
import CardAccess.Hex

/-!
# The send sequence counter

Both ends of a session count the commands and responses in 128 bits.  The host
enciphers a batch ahead of the card, so it can mark a position and return to it.
-/

namespace CardAccess
namespace Messaging

/-- A number of 128 bits. -/
structure Counter where
  value : BitVec 128
  deriving DecidableEq, Repr

namespace Counter

/-- The counter with the value `n` modulo `2 ^ 128`. -/
def ofNat (n : Nat) : Counter := ⟨BitVec.ofNat 128 n⟩

def ofBytes (bytes : Bytes) : Counter := ofNat (Bytes.toNat bytes)

def toBytes (c : Counter) : Bytes := Bytes.fixed Cipher.Block.size c.value.toNat

def toBlock (c : Counter) : Cipher.Block := .ofBytes c.toBytes

/-- The next value, which is zero after the last. -/
def next (c : Counter) : Counter := ⟨c.value + 1⟩

def display (c : Counter) : String := Hex.encodeUpper c.toBytes

def debug (c : Counter) : String := "SendSequenceCounter(" ++ c.display ++ ")"

end Counter

/-- A counter and a position to which it can return. -/
structure MarkedCounter where
  current : Counter
  mark : Option Counter
  deriving DecidableEq, Repr

namespace MarkedCounter

def start (c : Counter) : MarkedCounter := ⟨c, none⟩

def advance (c : MarkedCounter) : MarkedCounter := { c with current := c.current.next }

/-- Mark the current position in place of any other. -/
def setMark (c : MarkedCounter) : MarkedCounter := { c with mark := some c.current }

/-- Return to the mark, if there is one, and take it away. -/
def rewind (c : MarkedCounter) : MarkedCounter := ⟨c.mark.getD c.current, none⟩

end MarkedCounter
end Messaging
end CardAccess
