import CardAccess.Certificate.Certificate
import CardAccess.KeyService.Dialogue

/-!
# Certificate requests

A request is a certificate signed with its own new key, the inner signature, and
perhaps wrapped in an authentication element with a reference and a signature of
someone whom the issuer trusts already.  A request without the wrapper is kept
inside one all the same, so that every place is named by one path, and written
without it.

Every operation that changes a request returns the request as it is afterwards
next to its result, also where it fails, so that what a failure leaves behind can
be seen.  Signing works on a copy and puts it in the request's place at the end.
-/

namespace CardAccess

/-- Whether a request is wrapped. -/
inductive RequestShape where
  | authentication
  | bare
  deriving DecidableEq, Repr

/-- How far the signing of a request has come. -/
inductive SigningState where
  | unsigned
  | innerSigned
  | outerSigned
  deriving DecidableEq, Repr

/-- A request: its tree, with the wrapper as root, and its shape. -/
structure Request where
  node : Tlv
  shape : RequestShape
  deriving DecidableEq, Repr

namespace Request

open KeyService (Dialogue)

def wrap (certificate : Tlv) : Tlv := .constructed Layout.authentication [certificate]

def ofTlv (node : Tlv) : Except Error Request :=
  if node.tag = Layout.authentication then check ⟨node, .authentication⟩
  else if node.tag = Layout.cvCertificate then check ⟨wrap node, .bare⟩
  else .error (.notARequest node.tag)
where
  check (r : Request) : Except Error Request :=
    if (r.node.child? RequestPart.certificateBody.path).isNone then
      .error (.missingElement RequestPart.certificateBody.name)
    else .ok r

def ofBytes (bytes : Bytes) : Except Error Request := do
  ofTlv (← (Tlv.parse bytes).mapError .ofDecode)

def part? (r : Request) (part : RequestPart) : Option Tlv := r.node.child? part.path

def required (r : Request) (part : RequestPart) : Except Error Tlv :=
  match r.part? part with
  | none => .error (.missingElement part.name)
  | some found => .ok found

/-- How far the signing has come, told by the signatures that are there. -/
def state (r : Request) : SigningState :=
  if (r.part? .outerSignature).isSome then .outerSigned
  else if (r.part? .signature).isSome then .innerSigned
  else .unsigned

/-- The certificate element, or the whole tree where there is none. -/
def certificate (r : Request) : Tlv := (r.node.first? Layout.cvCertificate).getD r.node

/-- The bytes of the request, without the wrapper if it is bare. -/
def encode (r : Request) : Bytes :=
  match r.shape with
  | .authentication => r.node.encode
  | .bare => r.certificate.encode

/-- The request without the wrapper and what is signed in it. -/
def intoBare (r : Request) : Request := ⟨wrap r.certificate, .bare⟩

/-! ## Parts -/

/-- The key that is to be certified. -/
def publicKey (r : Request) : Except Error VerificationKey := do
  VerificationKey.ofTlv (← r.required .publicKey) none

def holderReference (r : Request) : Except Error String := do
  return Text.ofLatin1 (← r.required .holderReference).value

def authorityReference (r : Request) : Option String :=
  (r.part? .caReference).map fun found => Text.ofLatin1 found.value

def outerAuthorityReference (r : Request) : Option String :=
  (r.part? .outerCaReference).map fun found => Text.ofLatin1 found.value

/-! ## Changing parts -/

/-- Keep the outcome of an edit of the tree, or the request as it was. -/
def edited {α ε : Type} (r : Request) (wrap : ε → Error) :
    Except ε (Tlv × α) → Except Error α × Request
  | .ok (node, result) => (.ok result, { r with node := node })
  | .error e => (.error (wrap e), r)

def setValue (r : Request) (part : RequestPart) (value : Bytes) : Except Error Unit × Request :=
  r.edited .tlv ((r.node.setValueAt part.path value).map fun node => (node, ()))

/-- Put another element in a place and return the one that was there. -/
def replacePart (r : Request) (part : RequestPart) (new : Tlv) : Except Error Tlv × Request :=
  r.edited .ofEdit (r.node.replaceChild part.path new)

def removePart (r : Request) (part : RequestPart) : Except Error (Option Tlv) × Request :=
  r.edited .ofEdit (r.node.removeChild part.path)

def addPart (r : Request) (parent : RequestPart) (child : Tlv) : Except Error Unit × Request :=
  r.edited .ofEdit ((r.node.addChild parent.path child).map fun node => (node, ()))

/-- Put an element in a place, or append it at `parent` if the place is empty. -/
def putPart (r : Request) (part parent : RequestPart) (new : Tlv) :
    Except Error Unit × Request :=
  if (r.part? part).isSome then
    match r.replacePart part new with
    | (.ok _, r) => (.ok (), r)
    | (.error e, r) => (.error e, r)
  else r.addPart parent new

/-- Name the outer signer.  An outer signature is dropped, because it would no
longer fit. -/
def setOuterAuthorityReference (r : Request) (reference : String) :
    Except Error Unit × Request :=
  match r.shape with
  | .bare => (.error .notAuthentication, r)
  | .authentication =>
    match r.removePart .outerSignature with
    | (.error e, r) => (.error e, r)
    | (.ok _, r) =>
      r.putPart .outerCaReference .authentication
        (.primitive Layout.caReference (Text.toUtf8 reference))

/-! ## Signing -/

def askSignature (keyAlias : String) (id : ObjectId) (data : Bytes) :
    Dialogue (Except Error Bytes) :=
  .ask (.sign keyAlias id data) fun reply => .done (reply.mapError .signingFailed)

/-- Put a public key into the body and sign the body with its private key. -/
def signInner (r : Request) (key : VerificationKey) (keyAlias : String) :
    Dialogue (Except Error Unit × Request) :=
  match key.algorithm with
  | .error _ => .done (.error (.unsupportedKeyType .notEcdsa), r)
  | .ok algorithm =>
    match r.putPart .publicKey .certificateBody (key.toTlv true) with
    | (.error e, _) => .done (.error e, r)
    | (.ok (), staged) =>
      match staged.required .certificateBody with
      | .error e => .done (.error e, r)
      | .ok body =>
        (askSignature keyAlias algorithm.objectId body.encode).bind fun
          | .error e => .done (.error e, r)
          | .ok signature =>
            match staged.putPart .signature .cvCertificate
                (.primitive Layout.signature signature) with
            | (.error e, _) => .done (.error e, r)
            | (.ok (), signed) => .done (.ok (), signed)

/-- Check the inner signature with the key in the body.  A key for an unknown
algorithm is tried with the usual one. -/
def verifyInner (r : Request) : Except Error Unit := do
  let keyNode ← r.required .publicKey
  let key ← VerificationKey.ofTlv keyNode none
  let algorithm := match key.algorithm with
    | .ok algorithm => algorithm
    | .error _ => SignatureAlgorithm.ecdsaSha256
  let body ← r.required .certificateBody
  let signature ← r.required .signature
  Ecdsa.verify key.key.domain algorithm.hash key.key.point body.encode signature.value

/-- What the outer signature signs: everything inside the wrapper, given that the
signature itself has been taken out. -/
def outerSignedData (r : Request) : Bytes := Tlv.encodeAll r.node.children

def signOuter (r : Request) (keyAlias : Option String) (id : ObjectId) :
    Dialogue (Except Error Unit × Request) :=
  match r.shape, keyAlias with
  | .bare, _ => .done (.error .notAuthentication, r)
  | .authentication, none => .done (.error .missingSigner, r)
  | .authentication, some keyAlias =>
    if (r.part? .outerCaReference).isNone then
      .done (.error .missingOuterAuthorityReference, r)
    else
      match r.removePart .outerSignature with
      | (.error e, _) => .done (.error e, r)
      | (.ok _, staged) =>
        (askSignature keyAlias id staged.outerSignedData).bind fun
          | .error e => .done (.error e, r)
          | .ok signature =>
            match staged.addPart .authentication (.primitive Layout.signature signature) with
            | (.error e, _) => .done (.error e, r)
            | (.ok (), signed) => .done (.ok (), signed)

/-- Check the outer signature with the key of the outer signer. -/
def verifyOuter (r : Request) (key : VerificationKey) : Except Error Unit := do
  match r.shape with
  | .bare => .error .notAuthentication
  | .authentication =>
    let signature ← r.required .outerSignature
    match r.removePart .outerSignature with
    | (.error e, _) => .error e
    | (.ok _, unsigned) => key.verify unsigned.outerSignedData signature.value

end Request
end CardAccess
