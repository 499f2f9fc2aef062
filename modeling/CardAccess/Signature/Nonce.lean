import CardAccess.Hash.Algorithm

/-!
# Deterministic nonces

A signature needs a secret number that is never used twice.  It is drawn from a
generator seeded with the private key and the message digest, so that signing
needs no random numbers and one message always gets one signature.  The
generator is a chain of keyed hashes over a key and a value, each as long as a
digest.
-/

namespace CardAccess

structure NonceGenerator where
  hash : HashAlgorithm
  key : Bytes
  value : Bytes
  deriving DecidableEq, Repr

namespace NonceGenerator

/-- Mix `input` into the key and then renew the value. -/
def mix (g : NonceGenerator) (input : Bytes) : NonceGenerator :=
  let key := g.hash.hmac g.key (g.value ++ input)
  { g with key := key, value := g.hash.hmac key g.value }

/-- The generator for a private key and a digest, both in the width of a scalar. -/
def seed (hash : HashAlgorithm) (scalar digest : Bytes) : NonceGenerator :=
  let start : NonceGenerator :=
    ⟨hash, Bytes.zeros hash.digestLength, List.replicate hash.digestLength 0x01⟩
  (start.mix (0x00 :: (scalar ++ digest))).mix (0x01 :: (scalar ++ digest))

/-- Renew the value `blocks` times and collect the values. -/
def generate : (blocks : Nat) → NonceGenerator → Bytes × NonceGenerator
  | 0, g => ([], g)
  | blocks + 1, g =>
    let g := { g with value := g.hash.hmac g.key g.value }
    let (rest, last) := generate blocks g
    (g.value ++ rest, last)

/-- The next `count` bytes.  Afterwards the state moves on, so that the next
request draws something new. -/
def draw (count : Nat) (g : NonceGenerator) : Bytes × NonceGenerator :=
  let (bytes, g) := generate ((count + g.hash.digestLength - 1) / g.hash.digestLength) g
  (bytes.take count, g.mix [0x00])

end NonceGenerator
end CardAccess
