import CardAccess.Certificate.Layout
import CardAccess.Signature.Ecdsa

/-!
# Public keys

A public key is a point on a curve.  In a certificate it comes with the
identifier of the signature algorithm it is used with, which makes it a
`VerificationKey`.  Its element states the curve in full, or leaves it out where
the reader knows it already.
-/

namespace CardAccess

/-- A curve and a point on it. -/
structure PublicKey where
  domain : Domain
  point : Point
  deriving DecidableEq, Repr

/-- A public key and the identifier of the algorithm it is used with. -/
structure VerificationKey where
  id : ObjectId
  key : PublicKey
  deriving DecidableEq, Repr

namespace PublicKey

/-- The public key at a point that has to be on the curve. -/
def create (domain : Domain) (point : Point) : Except Error PublicKey :=
  if domain.contains point then .ok ⟨domain, point⟩ else .error .invalidPoint

def encodedPoint (key : PublicKey) : Bytes := key.domain.encodePoint key.point

def withId (key : PublicKey) (id : ObjectId) : VerificationKey := ⟨id, key⟩

end PublicKey

/-- The curve that a public key element states, if it states one.  A prime is
what marks a stated curve; without a cofactor it is one. -/
def Domain.ofTlv? (node : Tlv) : Except Error (Option Domain) :=
  match node.first? Layout.prime with
  | none => .ok none
  | some prime => do
    let p := prime.value.toNat
    let a ← number Layout.coefficientA "curve coefficient a"
    let b ← number Layout.coefficientB "curve coefficient b"
    let order ← number Layout.order "base point order"
    let cofactor := match node.first? Layout.cofactor with
      | none => 1
      | some found => found.value.toNat
    match node.first? Layout.basePoint with
    | none => .error (.missingElement "base point")
    | some found =>
      match Domain.splitPoint (byteLength p) found.value with
      | none => .error .invalidPoint
      | some generator =>
        let domain ← Domain.ofParameters ⟨p, a, b, generator, order, cofactor⟩
        .ok (some domain)
where
  number (tag : Tlv.Tag) (name : String) : Except Error Nat :=
    match node.first? tag with
    | none => .error (.missingElement name)
    | some found => .ok found.value.toNat

namespace VerificationKey

def algorithm (key : VerificationKey) : Except Error SignatureAlgorithm :=
  SignatureAlgorithm.ofObjectId key.id

/-- The element of the key, with the curve in full or without it. -/
def toTlv (key : VerificationKey) (full : Bool) : Tlv :=
  let d := key.key.domain
  let curve : List Tlv :=
    [.primitive Layout.prime (Bytes.minimal d.p),
      .primitive Layout.coefficientA (Bytes.minimal d.a),
      .primitive Layout.coefficientB (Bytes.minimal d.b),
      .primitive Layout.basePoint (d.encodePoint d.generator),
      .primitive Layout.order (Bytes.minimal d.order)]
  let point : Tlv := .primitive Layout.publicPoint key.key.encodedPoint
  let cofactor : Tlv := .primitive Layout.cofactor (Bytes.minimal d.cofactor)
  .constructed Layout.publicKey
    (if full then key.id.toTlv :: (curve ++ [point, cofactor]) else [key.id.toTlv, point])

/-- Read a key element.  An element that states no curve is read with
`fallback`. -/
def ofTlv (node : Tlv) (fallback : Option Domain) : Except Error VerificationKey := do
  if node.tag ≠ Layout.publicKey then .error (.unsupportedKeyType .notPublicKey)
  else
    match node.first? Tlv.Tag.objectIdentifier with
    | none => .error (.unsupportedKeyType .noAlgorithm)
    | some idNode =>
      let id ← idNode.toObjectId.mapError .tlv
      let domain ← match ← Domain.ofTlv? node with
        | some stated => .ok stated
        | none =>
          match fallback with
          | some known => .ok known
          | none => .error (.missingElement "domain parameters")
      match node.first? Layout.publicPoint with
      | none => .error (.missingElement "public point")
      | some pointNode =>
        let point ← domain.decodePoint pointNode.value
        let key ← PublicKey.create domain point
        .ok (key.withId id)

def verify (key : VerificationKey) (message signature : Bytes) : Except Error Unit := do
  let algorithm ← key.algorithm
  Ecdsa.verify key.key.domain algorithm.hash key.key.point message signature

end VerificationKey
end CardAccess
