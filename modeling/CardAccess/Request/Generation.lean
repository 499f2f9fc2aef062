import CardAccess.KeyService.Provision
import CardAccess.Request.Extensions
import CardAccess.Request.Reference

/-!
# Generating requests

A request is made from a root certificate, which serves as a template, and from
the certificate that it renews or, for a first request, from a reference and an
authorization:

1. the template loses what the issuer decides,
2. the next holder reference is put in,
3. the extensions are carried over and the description is bound,
4. a key is provided and signs the body,
5. the wrapper is signed by someone the issuer trusts, or taken off.

Every failure but a missing input is reported with the stage it came from.
-/

namespace CardAccess

/-- A holder reference and an authorization given outright. -/
structure AdditionalInput where
  holderReference : Option String
  chat : Option Chat
  deriving DecidableEq, Repr

namespace AdditionalInput

/-- The holder reference, where an empty one counts as none. -/
def reference? (input : AdditionalInput) : Option String :=
  input.holderReference.filter fun reference => !reference.isEmpty

/-- Whether it suffices without a certificate to renew. -/
def isComplete (input : AdditionalInput) : Bool :=
  input.reference?.isSome && input.chat.isSome

end AdditionalInput

/-- What a request is generated from. -/
structure GenerationInput where
  root : Certificate
  old : Option Certificate
  oldKey : Option PrivateKey
  description : Option Description
  additional : Option AdditionalInput
  usePresentKey : Bool
  signerAlias : Option String
  signerKey : Option PrivateKey
  nextNumber : Option Nat
  deriving DecidableEq, Repr

/-- What comes out of a generation. -/
structure GeneratedRequest where
  description : Option Description
  chat : Chat
  request : Request
  privateKey : Option Bytes
  deriving DecidableEq, Repr

namespace Generation

open KeyService (Dialogue Procedure)

/-- The algorithm of an outer signature by a request signer. -/
def signerAlgorithm : ObjectId := SignatureAlgorithm.ecdsaSha256.objectId

/-- What the issuer decides, and the root's own signature. -/
def clearedParts : List RequestPart :=
  [.caReference, .effectiveDate, .expirationDate, .chat, .signature]

/-- The root certificate as a template, and the root's reference. -/
def cleanRequest (root : Certificate) : Except Error (Request × String) := do
  let reference ← root.holderReference
  let request ← Request.ofTlv (Request.wrap root.node)
  let request ← clearedParts.foldlM
    (fun (r : Request) part => Request.committed (r.removePart part)) request
  return (request, reference)

def newReference (input : GenerationInput) (old : Option String) : Except Error String :=
  match input.additional.bind AdditionalInput.reference?, old with
  | some reference, _ => .ok reference
  | none, some old => atStage .setHolderReference (HolderReference.next old input.nextNumber)
  | none, none => .error (.missingInput .holderReference)

/-- Which key to use.  A first request takes a new key in any case. -/
def disposition (input : GenerationInput) : KeyDisposition :=
  if input.usePresentKey then .usePresent
  else if input.old.isNone then .replace
  else .generateIfNotPresent

/-- The request before it is signed, the reference in it and the root's
reference. -/
def prepare (input : GenerationInput) (old : Option String) :
    Except Error (Request × String × String) := do
  let (request, rootReference) ← atStage .cleanRequest (cleanRequest input.root)
  let reference ← newReference input old
  let request ← atStage .setHolderReference
    (Request.committed (request.setValue .holderReference (Text.toUtf8 reference)))
  let request ← match input.old with
    | none => .ok request
    | some certificate => atStage .copyExtensions (request.copyExtensions certificate)
  let request ← match input.description with
    | none => .ok request
    | some description =>
      atStage .setDescription (request.setDescription description input.root)
  return (request, reference, rootReference)

/-- Sign the body and check the signature. -/
def signBody (request : Request) (key : VerificationKey) (keyAlias : String) :
    Procedure Request :=
  ExceptT.mk ((request.signInner key keyAlias).bind fun outcome =>
    .done (do
      let signed ← Request.committed outcome
      signed.verifyInner
      return signed))

def chat (input : GenerationInput) : Except Error Chat :=
  match input.additional.bind AdditionalInput.chat with
  | some chat => .ok chat
  | none =>
    match input.old with
    | none => .error (.missingElement "CHAT")
    | some certificate => do
      match ← certificate.chat with
      | none => .error (.missingElement "CHAT")
      | some chat => .ok chat

/-- Sign the wrapper in the name of `signer`, with the given private key or else
with the one that the service has under that name. -/
def signWrapper (request : Request) (signer : String) (key : Option PrivateKey)
    (id : ObjectId) : Procedure Request :=
  match Request.committed (request.setOuterAuthorityReference signer) with
  | .error e => Procedure.ofExcept (.error e)
  | .ok request =>
    match key with
    | none =>
      ExceptT.mk ((request.signOuter (some signer) id).bind fun outcome =>
        .done (Request.committed outcome))
    | some key =>
      -- a given key signs in a store of its own, of which nothing is kept
      match KeyStore.empty.importKey signer key true with
      | .error e => Procedure.ofExcept (.error (.keyService e))
      | .ok store =>
        let (outcome, _) :=
          (request.signOuter (some signer) id).run SoftwareKeys.service (.ofStore store)
        Procedure.ofExcept (Request.committed outcome)

/-- Sign the wrapper as a request signer or as the holder of the certificate to
renew, or take it off. -/
def finish (input : GenerationInput) (old : Option String) (request : Request) :
    Procedure Request :=
  match input.signerAlias, input.old, old with
  | some signer, _, _ =>
    Procedure.at .setOuterSignature (signWrapper request signer input.signerKey signerAlgorithm)
  | none, some certificate, some reference =>
    Procedure.at .setOuterSignature (do
      let id ← Procedure.ofExcept certificate.publicKeyId
      signWrapper request reference input.oldKey id)
  | _, _, _ => pure request.intoBare

def isSufficient (input : GenerationInput) : Bool :=
  input.old.isSome || input.additional.any AdditionalInput.isComplete

def generate (input : GenerationInput) : Procedure GeneratedRequest := do
  if !isSufficient input then
    throw (.missingInput .certificateOrIdentity)
  let old ← Procedure.ofExcept (atStage .readHolderReference
    (input.old.mapM Certificate.holderReference))
  let (request, reference, rootReference) ← Procedure.ofExcept (prepare input old)
  let key ← Procedure.at .setSignature
    (KeyService.provide input.root (some rootReference) reference (disposition input))
  let request ← Procedure.at .setSignature (signBody request key.publicKey reference)
  let chat ← Procedure.ofExcept (atStage .readChat (chat input))
  let request ← finish input old request
  let privateKey ← Procedure.ofExcept (atStage .setSignature
    (key.privateKey.mapM PrivateKey.toPkcs8))
  return ⟨input.description, chat, request, privateKey⟩

end Generation
end CardAccess
