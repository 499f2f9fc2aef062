import CardAccess.Curve.Domain
import CardAccess.Signature.Nonce

/-!
# ECDSA

A signature is two scalars `r` and `s`, each in the width of the order, one after
the other.  Signing tries nonce candidates until one gives two scalars that are
not zero; where the candidates come from is a parameter, and `sign` takes them
from the deterministic generator.  Verifying recomputes the point that the nonce
gave and compares its `x` coordinate with `r`.
-/

namespace CardAccess

/-- The signature algorithm: ECDSA over the digest of a hash function. -/
structure SignatureAlgorithm where
  hash : HashAlgorithm
  deriving DecidableEq, Repr

namespace SignatureAlgorithm

/-- The algorithm that is assumed where none is named. -/
def ecdsaSha256 : SignatureAlgorithm := ⟨.sha256⟩

/-- The object identifier, below `0.4.0.127.0.7.2.2.2.2`. -/
def objectId (algorithm : SignatureAlgorithm) : ObjectId :=
  let last : UInt8 := match algorithm.hash with
    | .sha1 => 1
    | .sha224 => 2
    | .sha256 => 3
    | .sha384 => 4
    | .sha512 => 5
  ⟨[0x04, 0x00, 0x7F, 0x00, 0x07, 0x02, 0x02, 0x02, 0x02, last]⟩

def ofObjectId (id : ObjectId) : Except Error SignatureAlgorithm :=
  match HashAlgorithm.all.find? fun hash => (⟨hash⟩ : SignatureAlgorithm).objectId == id with
  | some hash => .ok ⟨hash⟩
  | none => .error (.unsupportedAlgorithm id)

end SignatureAlgorithm

namespace Ecdsa

def maxAttempts : Nat := 64

/-- The leading bits of a digest, as many as the order has, as a number. -/
def truncate (d : Domain) (digest : Bytes) : Nat :=
  let digestBits := 8 * digest.length
  let orderBits := bitLength d.order
  if digestBits > orderBits then digest.toNat >>> (digestBits - orderBits) else digest.toNat

/-- The number that is signed in the place of a message. -/
def messageScalar (d : Domain) (hash : HashAlgorithm) (message : Bytes) : Nat :=
  truncate d (hash.digest message)

/-- The bits by which a scalar in full bytes is longer than the order. -/
def excessBits (d : Domain) : Nat := d.orderLength * 8 - bitLength d.order

/-- The scalars of the signature of `e` with the private key `key` and the nonce
`k`, unless the nonce is out of range or one of the scalars is zero. -/
def attempt (d : Domain) (key e k : Nat) : Option (Nat × Nat) :=
  if k = 0 ∨ k ≥ d.order then none
  else
    match d.mulGenerator k with
    | none => none
    | some point =>
      let r := point.x % d.order
      if r = 0 then none
      else
        let s := Modular.inverse d.order k * ((e + r * key) % d.order) % d.order
        if s = 0 then none else some (r, s)

/-- Both scalars in the width of the order. -/
def encodeSignature (d : Domain) (r s : Nat) : Bytes :=
  Bytes.fixed d.orderLength r ++ Bytes.fixed d.orderLength s

/-- Try nonces from a source of byte strings, at most `attempts` of them. -/
def signFrom {σ : Type} (d : Domain) (key e : Nat) (next : σ → Bytes × σ) :
    (attempts : Nat) → σ → Except Error Bytes
  | 0, _ => .error .noUsableNonce
  | attempts + 1, source =>
    let (candidate, source) := next source
    match attempt d key e (candidate.toNat >>> excessBits d) with
    | some (r, s) => .ok (encodeSignature d r s)
    | none => signFrom d key e next attempts source

def nonceSource (d : Domain) (hash : HashAlgorithm) (key e : Nat) : NonceGenerator :=
  .seed hash (Bytes.fixed d.orderLength key) (Bytes.fixed d.orderLength (e % d.order))

def sign (d : Domain) (hash : HashAlgorithm) (key : Nat) (message : Bytes) :
    Except Error Bytes :=
  if key = 0 ∨ key ≥ d.order then .error (.invalidPrivateKey .scalarOutOfRange)
  else
    let e := messageScalar d hash message
    signFrom d key e (NonceGenerator.draw d.orderLength) maxAttempts (nonceSource d hash key e)

/-- Whether `r` and `s` are a signature of `e` under a public point. -/
def verifyScalars (d : Domain) (publicPoint : Point) (e r s : Nat) : Bool :=
  let w := Modular.inverse d.order s
  match d.mulAdd (e * w % d.order) d.generator (r * w % d.order) publicPoint with
  | none => false
  | some point => point.x % d.order == r

def verify (d : Domain) (hash : HashAlgorithm) (publicPoint : Point) (message signature : Bytes) :
    Except Error Unit :=
  if signature.length ≠ 2 * d.orderLength then .error .invalidSignature
  else
    let r := Bytes.toNat (signature.take d.orderLength)
    let s := Bytes.toNat (signature.drop d.orderLength)
    if r = 0 ∨ s = 0 ∨ r ≥ d.order ∨ s ≥ d.order then .error .invalidSignature
    else if d.contains publicPoint = false then .error .invalidPoint
    else if verifyScalars d publicPoint (messageScalar d hash message) r s then .ok ()
    else .error .invalidSignature

end Ecdsa
end CardAccess
