import CardAccess.Bytes

/-!
# Block-wise hashing

The SHA functions pad a message to whole blocks and fold one compression step
over them.  What they share is here: the padding, which appends a `1` bit, zeros
and the message length in bits, and the cutting of a block into words.
-/

namespace CardAccess
namespace Hash

/-- The padding behind a message of `length` bytes, for blocks of `blockLength`
bytes of which the last `counterLength` state the length in bits. -/
def padding (blockLength counterLength length : Nat) : Bytes :=
  let used := (length + 1 + counterLength) % blockLength
  0x80 :: (Bytes.zeros ((blockLength - used) % blockLength) ++ Bytes.fixed counterLength (8 * length))

/-- The blocks of the padded message. -/
def blocks (blockLength counterLength : Nat) (message : Bytes) : List Bytes :=
  Bytes.chunks blockLength (message ++ padding blockLength counterLength message.length)

end Hash
end CardAccess
