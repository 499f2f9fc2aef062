import CardAccess.Certificate.Chat
import CardAccess.Certificate.Date
import CardAccess.Key.Public
import CardAccess.Text

/-!
# Card verifiable certificates

A certificate is an element tree with tag `7F21` and a body, which is all that is
checked when one is taken in.  Everything else is looked up and read when it is
asked for, so each part can be missing or malformed by itself.
-/

namespace CardAccess

/-- A certificate, by its element. -/
structure Certificate where
  node : Tlv
  deriving DecidableEq, Repr

namespace Certificate

def ofTlv (node : Tlv) : Except Error Certificate :=
  if node.tag ≠ Layout.cvCertificate then .error (.invalidCertificate .notCertificate)
  else if (node.child? CertificatePart.body.path).isNone then
    .error (.missingElement "certificate body")
  else .ok ⟨node⟩

def ofBytes (bytes : Bytes) : Except Error Certificate := do
  ofTlv (← (Tlv.parse bytes).mapError .ofDecode)

def encode (c : Certificate) : Bytes := c.node.encode

def part? (c : Certificate) (part : CertificatePart) : Option Tlv := c.node.child? part.path

def required (c : Certificate) (part : CertificatePart) : Except Error Tlv :=
  match c.part? part with
  | none => .error (.missingElement part.name)
  | some found => .ok found

/-- What is signed. -/
def body (c : Certificate) : Except Error Tlv := c.required .body

def holderReference (c : Certificate) : Except Error String := do
  return Text.ofLatin1 (← c.required .holderReference).value

def authorityReference (c : Certificate) : Except Error String := do
  return Text.ofLatin1 (← c.required .caReference).value

def publicKeyId (c : Certificate) : Except Error ObjectId := do
  (← c.required .publicKeyId).toObjectId.mapError .tlv

/-- The algorithm that the key is used with. -/
def signatureAlgorithm (c : Certificate) : Except Error SignatureAlgorithm := do
  SignatureAlgorithm.ofObjectId (← c.publicKeyId)

def domain (c : Certificate) : Except Error Domain := do
  match ← Domain.ofTlv? (← c.required .publicKey) with
  | none => .error (.missingElement "domain parameters")
  | some stated => .ok stated

/-- The key, on the issuer's curve if the certificate states none. -/
def publicKey (c : Certificate) (issuerDomain : Option Domain) :
    Except Error VerificationKey := do
  VerificationKey.ofTlv (← c.required .publicKey) issuerDomain

def chat (c : Certificate) : Except Error (Option Chat) :=
  match c.part? .chat with
  | none => .ok none
  | some found => (Chat.ofTlv found).map some

def date (c : Certificate) (part : CertificatePart) : Except Error (Option Date) :=
  match c.part? part with
  | none => .ok none
  | some found => (Date.ofBytes found.value).map some

/-- The first day of validity, if stated. -/
def effectiveDate (c : Certificate) : Except Error (Option Date) := c.date .effectiveDate

/-- The last day of validity, if stated. -/
def expirationDate (c : Certificate) : Except Error (Option Date) := c.date .expirationDate

def extensions (c : Certificate) : Option Tlv := c.part? .extensions

def signature (c : Certificate) : Except Error Bytes := do
  return (← c.required .signature).value

/-- Check the signature with the issuer's key. -/
def verify (c : Certificate) (issuerKey : VerificationKey) : Except Error Unit := do
  let body ← c.body
  let signature ← c.signature
  issuerKey.verify body.encode signature

end Certificate
end CardAccess
