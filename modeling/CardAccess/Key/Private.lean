import CardAccess.Curve.Named
import CardAccess.Key.Public

/-!
# Private keys

A private key is a curve and a scalar between one and the order, kept in the
width of the order.  Outside it is a PKCS#8 structure, which names the curve and
so exists only for named curves.
-/

namespace CardAccess

/-- A curve and the bytes of a scalar. -/
structure PrivateKey where
  domain : Domain
  scalar : Bytes
  deriving DecidableEq, Repr

namespace PrivateKey

/-- The identifier of keys on elliptic curves, `1.2.840.10045.2.1`. -/
def ecPublicKeyId : ObjectId := ⟨[0x2A, 0x86, 0x48, 0xCE, 0x3D, 0x02, 0x01]⟩

/-- The key with the scalar that the bytes spell, in any width. -/
def ofScalar (domain : Domain) (bytes : Bytes) : Except Error PrivateKey :=
  let scalar := bytes.toNat
  if scalar = 0 ∨ scalar ≥ domain.order then .error (.invalidPrivateKey .scalarOutOfRange)
  else .ok ⟨domain, Bytes.fixed domain.orderLength scalar⟩

/-- A key from as many random bytes as `domain.randomLength` says. -/
def generate (domain : Domain) (random : Bytes) : PrivateKey :=
  ⟨domain, Bytes.fixed domain.orderLength (domain.randomScalar random)⟩

def publicKey (key : PrivateKey) : Except Error PublicKey :=
  match key.domain.mulGenerator key.scalar.toNat with
  | none => .error (.invalidPrivateKey .scalarToInfinity)
  | some point => PublicKey.create key.domain point

def sign (key : PrivateKey) (algorithm : SignatureAlgorithm) (message : Bytes) :
    Except Error Bytes :=
  Ecdsa.sign key.domain algorithm.hash key.scalar.toNat message

def toPkcs8 (key : PrivateKey) : Except Error Bytes :=
  match key.domain.namedCurve? with
  | none => .error .unknownCurve
  | some curve =>
    let inner : Tlv := .constructed Tlv.Tag.sequence
      [.primitive Tlv.Tag.integer [0x01], .primitive Tlv.Tag.octetString key.scalar]
    let info : Tlv := .constructed Tlv.Tag.sequence
      [.primitive Tlv.Tag.integer [0x00],
        .constructed Tlv.Tag.sequence [ecPublicKeyId.toTlv, curve.objectId.toTlv],
        .primitive Tlv.Tag.octetString inner.encode]
    .ok info.encode

/-- The key in a PKCS#8 structure.  Elements behind those that are read do not
matter. -/
def ofPkcs8 (bytes : Bytes) : Except Error PrivateKey := do
  let info ← (Tlv.parse bytes).mapError .ofDecode
  match info.children with
  | version :: algorithm :: wrapped :: _ =>
    if version.tag ≠ Tlv.Tag.integer ∨ version.value ≠ [0x00] then
      .error (.invalidPrivateKey .unsupportedVersion)
    else
      match algorithm.children with
      | keyType :: curveNode :: _ =>
        let keyId ← keyType.toObjectId.mapError .tlv
        if keyId ≠ ecPublicKeyId then .error (.invalidPrivateKey .notEcKey)
        else
          let curveId ← curveNode.toObjectId.mapError .tlv
          match NamedCurve.ofObjectId? curveId with
          | none => .error .unknownCurve
          | some curve =>
            if wrapped.tag ≠ Tlv.Tag.octetString then
              .error (.invalidPrivateKey .notOctetString)
            else
              let inner ← (Tlv.parse wrapped.value).mapError .ofDecode
              match inner.first? Tlv.Tag.octetString with
              | none => .error (.invalidPrivateKey .missingScalar)
              | some scalar => ofScalar curve.domain scalar.value
      | _ => .error (.invalidPrivateKey .truncatedAlgorithm)
  | _ => .error (.invalidPrivateKey .truncatedInfo)

/-- The key as a message may show it: the name of the curve and not the scalar. -/
def display (key : PrivateKey) : String :=
  let curve := match key.domain.namedCurve? with
    | some curve => "Some(" ++ curve.name ++ ")"
    | none => "None"
  "EcPrivateKey \x7b curve: " ++ curve ++ ", .. \x7d"

end PrivateKey
end CardAccess
