import CardAccess.Hash.Sha1
import CardAccess.Hash.Sha2

/-!
# Hash functions

The five hash functions that signatures are made with, and the keyed hash built
from them.
-/

namespace CardAccess

inductive HashAlgorithm where
  | sha1
  | sha224
  | sha256
  | sha384
  | sha512
  deriving DecidableEq, Repr

namespace HashAlgorithm

def all : List HashAlgorithm := [.sha1, .sha224, .sha256, .sha384, .sha512]

def digest : HashAlgorithm → Bytes → Bytes
  | .sha1 => Hash.Sha1.digest
  | .sha224 => Hash.Sha2.sha224
  | .sha256 => Hash.Sha2.sha256
  | .sha384 => Hash.Sha2.sha384
  | .sha512 => Hash.Sha2.sha512

def digestLength : HashAlgorithm → Nat
  | .sha1 => 20
  | .sha224 => 28
  | .sha256 => 32
  | .sha384 => 48
  | .sha512 => 64

def blockLength : HashAlgorithm → Nat
  | .sha1 | .sha224 | .sha256 => 64
  | .sha384 | .sha512 => 128

/-- A key in the width of a block: zeros are appended, and a longer key is hashed
first. -/
def blockKey (hash : HashAlgorithm) (key : Bytes) : Bytes :=
  let short := if key.length > hash.blockLength then hash.digest key else key
  short ++ Bytes.zeros (hash.blockLength - short.length)

/-- The keyed hash of a message: two nested digests, each led by the key masked
with a constant. -/
def hmac (hash : HashAlgorithm) (key message : Bytes) : Bytes :=
  let wide := hash.blockKey key
  let inner := hash.digest (wide.map (· ^^^ 0x36) ++ message)
  hash.digest (wide.map (· ^^^ 0x5C) ++ inner)

end HashAlgorithm
end CardAccess
