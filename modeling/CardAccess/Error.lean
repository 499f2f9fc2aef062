import CardAccess.Text.Quoted
import CardAccess.ObjectId
import CardAccess.Tlv.Edit

/-!
# Failures

One type for everything that can fail with certificates, requests and keys.
Each constructor is a cause; the wording is in `message`.  Failures of a key
service can be caused by failures of this kind and can cause them, so the two
types are defined together.
-/

namespace CardAccess

/-- What is wrong with a certificate or one of its parts. -/
inductive CertificateFault where
  | modulusNotOdd
  | coefficientNotReduced
  | orderBelowTwo
  | cofactorZero
  | singularCurve
  | orderMismatch
  | unknownRole
  | authorizationLength
  | notChat
  | dateOutOfRange
  | dateLength
  | dateDigit
  | notCertificate
  | notDescription
  | descriptionNotUtf8
  | termsNotUtf8
  | unknownDescriptionType
  deriving DecidableEq, Repr

def CertificateFault.message : CertificateFault → String
  | .modulusNotOdd => "prime modulus must be odd and greater than 3"
  | .coefficientNotReduced => "curve coefficient not reduced modulo p"
  | .orderBelowTwo => "base point order below 2"
  | .cofactorZero => "cofactor is zero"
  | .singularCurve => "singular curve"
  | .orderMismatch => "order does not match the base point"
  | .unknownRole => "unknown terminal role in CHAT"
  | .authorizationLength => "relative authorization has wrong length"
  | .notChat => "not a CHAT element"
  | .dateOutOfRange => "date out of range"
  | .dateLength => "date must have six digits"
  | .dateDigit => "date digit out of range"
  | .notCertificate => "top level tag is not 7F21"
  | .notDescription => "certificate description is not a SEQUENCE"
  | .descriptionNotUtf8 => "description text is not UTF-8"
  | .termsNotUtf8 => "terms of usage are not UTF-8"
  | .unknownDescriptionType => "unknown description type"

/-- What is wrong with a public key element. -/
inductive PublicKeyFault where
  | notPublicKey
  | noAlgorithm
  | notEcdsa
  deriving DecidableEq, Repr

def PublicKeyFault.message : PublicKeyFault → String
  | .notPublicKey => "not a public key element"
  | .noAlgorithm => "public key carries no algorithm identifier"
  | .notEcdsa => "public key is not a TA-ECDSA key"

/-- What is wrong with a private key. -/
inductive PrivateKeyFault where
  | scalarOutOfRange
  | scalarToInfinity
  | truncatedInfo
  | unsupportedVersion
  | truncatedAlgorithm
  | notEcKey
  | notOctetString
  | missingScalar
  deriving DecidableEq, Repr

def PrivateKeyFault.message : PrivateKeyFault → String
  | .scalarOutOfRange => "scalar out of range"
  | .scalarToInfinity => "scalar maps to infinity"
  | .truncatedInfo => "truncated PrivateKeyInfo"
  | .unsupportedVersion => "unsupported PrivateKeyInfo version"
  | .truncatedAlgorithm => "truncated algorithm identifier"
  | .notEcKey => "not an EC key"
  | .notOctetString => "private key is not an OCTET STRING"
  | .missingScalar => "missing private scalar"

/-- What the generation of a request was not given. -/
inductive MissingInput where
  | certificateOrIdentity
  | holderReference
  deriving DecidableEq, Repr

def MissingInput.message : MissingInput → String
  | .certificateOrIdentity => "old certificate or holder reference and CHAT"
  | .holderReference => "holder reference"

/-- The steps of a request generation. -/
inductive Stage where
  | readHolderReference
  | copyExtensions
  | cleanRequest
  | setHolderReference
  | setSignature
  | setDescription
  | setOuterSignature
  | readChat
  deriving DecidableEq, Repr

def Stage.message : Stage → String
  | .readHolderReference => "reading CHR from old certificate failed, possibly corrupted"
  | .copyExtensions => "copying extensions from old certificate to request failed"
  | .cleanRequest =>
    "creating clean request failed - probably given root certificate corrupted"
  | .setHolderReference => "setting holder reference failed"
  | .setSignature => "setting signature failed"
  | .setDescription => "setting certificate description failed"
  | .setOuterSignature => "setting outer signature failed"
  | .readChat => "reading CHAT from old certificate failed, possibly corrupted"

mutual

/-- A failure with a certificate, a request or a key. -/
inductive Error where
  | tlv (e : Tlv.Error)
  | missingElement (name : String)
  | notARequest (tag : Tlv.Tag)
  | invalidCertificate (fault : CertificateFault)
  | unsupportedAlgorithm (id : ObjectId)
  | unsupportedKeyType (fault : PublicKeyFault)
  | unknownCurve
  | invalidPoint
  | invalidPrivateKey (fault : PrivateKeyFault)
  | signingFailed (e : KeyServiceError)
  | keyService (e : KeyServiceError)
  | noUsableNonce
  | invalidSignature
  | missingSigner
  | missingOuterAuthorityReference
  | notAuthentication
  | invalidHolderReference (reference : String)
  | missingInput (input : MissingInput)
  | stage (stage : Stage) (cause : Error)
  deriving DecidableEq, Repr

/-- A failure of a key service. -/
inductive KeyServiceError where
  | unsupported (operation : String)
  | keyNotFound (keyAlias : String)
  | keyExists (keyAlias : String)
  | crypto (e : Error)
  deriving DecidableEq, Repr

end

mutual

def Error.message : Error → String
  | .tlv e => e.message
  | .missingElement name => "missing element " ++ name
  | .notARequest tag => "not a certificate request: top level tag " ++ tag.display
  | .invalidCertificate fault => "invalid certificate: " ++ fault.message
  | .unsupportedAlgorithm id => "unsupported signature algorithm " ++ id.toText
  | .unsupportedKeyType fault => "unsupported key type: " ++ fault.message
  | .unknownCurve => "curve has no registered object identifier"
  | .invalidPoint => "invalid curve point"
  | .invalidPrivateKey fault => "invalid private key: " ++ fault.message
  | .signingFailed e => "signing failed: " ++ e.message
  | .keyService e => e.message
  | .noUsableNonce => "no usable signature nonce"
  | .invalidSignature => "signature verification failed"
  | .missingSigner => "no key alias or key material supplied"
  | .missingOuterAuthorityReference => "outer authority reference not set"
  | .notAuthentication => "operation requires an authentication request"
  | .invalidHolderReference reference => "invalid holder reference " ++ Text.quoted reference
  | .missingInput input => "missing input: " ++ input.message
  | .stage stage cause => stage.message ++ ": " ++ cause.message

def KeyServiceError.message : KeyServiceError → String
  | .unsupported operation => "operation not supported by key service: " ++ operation
  | .keyNotFound keyAlias => "no key stored under alias " ++ keyAlias
  | .keyExists keyAlias => "key already stored under alias " ++ keyAlias
  | .crypto e => "cryptographic failure: " ++ e.message

end

/-- Report a failure of `result` as one at `stage`. -/
def atStage {α : Type} (stage : Stage) (result : Except Error α) : Except Error α :=
  result.mapError (.stage stage)

def Error.ofDecode (e : Tlv.DecodeError) : Error := .tlv (.decode e)

def Error.ofEdit (e : Tlv.StructureError) : Error := .tlv (.edit e)

end CardAccess
