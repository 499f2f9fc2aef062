import CardAccess.Tlv.Path

/-!
# The layout of certificates and requests

The tags of the elements, and the places that certificates and requests are read
and changed at.  A place in a request is a `RequestPart`, one in a certificate a
`CertificatePart`: two types, so that each is only used on its own kind of tree.
-/

namespace CardAccess
namespace Layout

open Tlv (Tag)

def authentication : Tag := ⟨0x67⟩
def cvCertificate : Tag := ⟨0x7F21⟩
def certificateBody : Tag := ⟨0x7F4E⟩
def profileIdentifier : Tag := ⟨0x5F29⟩
def caReference : Tag := ⟨0x42⟩
def holderReference : Tag := ⟨0x5F20⟩
def chat : Tag := ⟨0x7F4C⟩
def effectiveDate : Tag := ⟨0x5F25⟩
def expirationDate : Tag := ⟨0x5F24⟩
def publicKey : Tag := ⟨0x7F49⟩
def signature : Tag := ⟨0x5F37⟩
def extensions : Tag := ⟨0x65⟩
def discretionaryTemplate : Tag := ⟨0x73⟩
def discretionaryData : Tag := ⟨0x53⟩
def extensionHash : Tag := ⟨0x80⟩

/-! ## Elements of a public key -/

def prime : Tag := ⟨0x81⟩
def coefficientA : Tag := ⟨0x82⟩
def coefficientB : Tag := ⟨0x83⟩
def basePoint : Tag := ⟨0x84⟩
def order : Tag := ⟨0x85⟩
def publicPoint : Tag := ⟨0x86⟩
def cofactor : Tag := ⟨0x87⟩

end Layout

/-- A place in a request, which has the authentication element as its root. -/
inductive RequestPart where
  | authentication
  | cvCertificate
  | certificateBody
  | caReference
  | holderReference
  | publicKey
  | chat
  | effectiveDate
  | expirationDate
  | signature
  | extensions
  | firstTemplate
  | firstTemplateId
  | firstTemplateHash
  | secondTemplate
  | secondTemplateId
  | secondTemplateHash
  | outerCaReference
  | outerSignature
  deriving DecidableEq, Repr

namespace RequestPart

open Tlv (Path Tag)

def all : List RequestPart :=
  [.authentication, .cvCertificate, .certificateBody, .caReference, .holderReference,
    .publicKey, .chat, .effectiveDate, .expirationDate, .signature, .extensions, .firstTemplate,
    .firstTemplateId, .firstTemplateHash, .secondTemplate, .secondTemplateId,
    .secondTemplateHash, .outerCaReference, .outerSignature]

def rootPath : Path := Path.ofRoot "AUTHENTICATION" Layout.authentication

def certificatePath : Path := rootPath.child "CV_CERTIFICATE" Layout.cvCertificate 0

def bodyPath : Path := certificatePath.child "CV_CERTIFICATE_BODY" Layout.certificateBody 0

def extensionsPath : Path := bodyPath.child "CERTIFICATE_EXTENSIONS" Layout.extensions 0

def firstPath : Path :=
  extensionsPath.child "EXTENSIONS_DISCRETIONARY_DATA_FIRST" Layout.discretionaryTemplate 0

def secondPath : Path :=
  extensionsPath.child "EXTENSIONS_DISCRETIONARY_DATA_SECOND" Layout.discretionaryTemplate 1

def path : RequestPart → Path
  | .authentication => rootPath
  | .cvCertificate => certificatePath
  | .certificateBody => bodyPath
  | .caReference => bodyPath.child "CA_REFERENCE" Layout.caReference 0
  | .holderReference => bodyPath.child "HOLDER_REFERENCE" Layout.holderReference 0
  | .publicKey => bodyPath.child "PUBLIC_KEY" Layout.publicKey 0
  | .chat => bodyPath.child "CHAT" Layout.chat 0
  | .effectiveDate => bodyPath.child "EFFECTIVE_DATE" Layout.effectiveDate 0
  | .expirationDate => bodyPath.child "EXPIRATION_DATE" Layout.expirationDate 0
  | .signature => certificatePath.child "SIGNATURE" Layout.signature 0
  | .extensions => extensionsPath
  | .firstTemplate => firstPath
  | .firstTemplateId => firstPath.child "DISCRETIONARY_DATA_FIRST_OID" Tag.objectIdentifier 0
  | .firstTemplateHash => firstPath.child "DISCRETIONARY_DATA_FIRST_HASH" Layout.extensionHash 0
  | .secondTemplate => secondPath
  | .secondTemplateId => secondPath.child "DISCRETIONARY_DATA_SECOND_OID" Tag.objectIdentifier 0
  | .secondTemplateHash =>
    secondPath.child "DISCRETIONARY_DATA_SECOND_HASH" Layout.extensionHash 0
  | .outerCaReference => rootPath.child "OUTER_CA_REFERENCE" Layout.caReference 0
  | .outerSignature => rootPath.child "OUTER_SIGNATURE" Layout.signature 0

def name (part : RequestPart) : String := part.path.name

end RequestPart

/-- A place in a certificate. -/
inductive CertificatePart where
  | cvCertificate
  | body
  | profileIdentifier
  | caReference
  | publicKey
  | publicKeyId
  | holderReference
  | chat
  | effectiveDate
  | expirationDate
  | extensions
  | signature
  deriving DecidableEq, Repr

namespace CertificatePart

open Tlv (Path Tag)

def all : List CertificatePart :=
  [.cvCertificate, .body, .profileIdentifier, .caReference, .publicKey, .publicKeyId,
    .holderReference, .chat, .effectiveDate, .expirationDate, .extensions, .signature]

def rootPath : Path := Path.ofRoot "CV_CERTIFICATE" Layout.cvCertificate

def bodyPath : Path := rootPath.child "BODY" Layout.certificateBody 0

def path : CertificatePart → Path
  | .cvCertificate => rootPath
  | .body => bodyPath
  | .profileIdentifier => bodyPath.child "PROFILE_IDENTIFIER" Layout.profileIdentifier 0
  | .caReference => bodyPath.child "CA_REFERENCE" Layout.caReference 0
  | .publicKey => bodyPath.child "PUBLIC_KEY" Layout.publicKey 0
  | .publicKeyId =>
    (bodyPath.child "PUBLIC_KEY" Layout.publicKey 0).child "PUBLIC_KEY_OID"
      Tag.objectIdentifier 0
  | .holderReference => bodyPath.child "HOLDER_REFERENCE" Layout.holderReference 0
  | .chat => bodyPath.child "CHAT" Layout.chat 0
  | .effectiveDate => bodyPath.child "EFFECTIVE_DATE" Layout.effectiveDate 0
  | .expirationDate => bodyPath.child "EXPIRATION_DATE" Layout.expirationDate 0
  | .extensions => bodyPath.child "EXTENSIONS" Layout.extensions 0
  | .signature => rootPath.child "SIGNATURE" Layout.signature 0

def name (part : CertificatePart) : String := part.path.name

end CertificatePart
end CardAccess
